import CosmosSdk.Store.Types
import CosmosSdk.Lib.PrefixRange

/-!
# Prefix iteration

Keys of the stores are byte strings, compared as `bytes.Compare` does: byte by byte, a proper prefix
first.  `PrefixEndBytes p` (`store/types/utils.go`) ends the range of the keys that carry `p`: it drops
the trailing `0xFF` bytes of `p` and increments the last byte left, and has no end (`nil`) when none is
left.  The keys at least `p` and below that end are exactly the keys of which `p` is a prefix
(`isKeyInDomain_prefixEndBytes_iff`), so `KVStorePrefixIterator` and `KVStoreReversePrefixIterator`
of a store that behaves as a map walk exactly its entries that carry the prefix
(`yields_kvStorePrefixIterator`).

`prefix.Store` (`store/prefix/store.go`) puts its prefix before every key and iterates its parent
between the prefixed bounds, with `cpIncr p = PrefixEndBytes p` for a `nil` end; its iterator strips
the prefix from each key and stops at the first key that does not carry it.  Over a parent that
behaves as a map `m`, it behaves as the map that holds at `k` what `m` holds at `p ++ k`
(`prefixStore_implements`).
-/

namespace CosmosSdk

/-- Byte strings in the order of `bytes.Compare`: lexicographic (`List.lt`), with the list's own
equality and comparison tests. -/
instance instLinearOrderBytes : LinearOrder (List UInt8) where
  le_refl := List.le_refl
  le_trans _ _ _ := List.le_trans
  le_antisymm _ _ := List.le_antisymm
  le_total := List.le_total
  lt_iff_le_not_ge _ _ :=
    ⟨fun h => ⟨List.lt_asymm h, fun h' => h' h⟩, fun h => Classical.not_not.1 h.2⟩
  toDecidableEq := instDecidableEqList
  toDecidableLT := inferInstance
  toDecidableLE := inferInstance
  compare a b := compareOfLessAndEq a b
  compare_eq_compareOfLessAndEq _ _ := rfl

theorem UInt8.not_255_lt (y : UInt8) : ¬(255 : UInt8) < y := by
  have := y.toNat_lt
  rw [UInt8.lt_iff_toNat_lt]
  simp only [UInt8.reduceToNat]
  omega

/-- A byte other than `0xFF` is followed by its increment, with nothing in between. -/
theorem UInt8.lt_add_one_of_ne {b : UInt8} (hb : b ≠ 255) : b < b + 1 := by
  have hb' : b.toNat ≠ 255 := fun h => hb (UInt8.toNat_inj.1 h)
  have := b.toNat_lt
  rw [UInt8.lt_iff_toNat_lt, UInt8.toNat_add]
  simp only [UInt8.reduceToNat]
  omega

theorem UInt8.not_lt_add_one_of_lt {b y : UInt8} (hb : b ≠ 255) (h : b < y) : ¬y < b + 1 := by
  have hb' : b.toNat ≠ 255 := fun h => hb (UInt8.toNat_inj.1 h)
  have := y.toNat_lt
  rw [UInt8.lt_iff_toNat_lt] at h ⊢
  rw [UInt8.toNat_add]
  simp only [UInt8.reduceToNat]
  omega

/-! ### `PrefixEndBytes` -/

/-- The loop of `PrefixEndBytes` on `end`, read from its last byte: a last byte `0xFF` is dropped, the
first other one is incremented, and nothing is left when every byte was `0xFF`. -/
def prefixEndBytesLoop : List UInt8 → Option (List UInt8)
  | [] => none
  | b :: rest => if b ≠ 255 then some ((b + 1) :: rest) else prefixEndBytesLoop rest

/-- `PrefixEndBytes`: the end of a range query for the keys that carry `pre`, `none` for `nil`. -/
def prefixEndBytes (pre : List UInt8) : Option (List UInt8) :=
  if pre.length = 0 then none else (prefixEndBytesLoop pre.reverse).map List.reverse

example : prefixEndBytes [1, 255, 255] = some [2] := by decide

example : prefixEndBytes [255, 255] = none := by decide

/-- What the loop finds on a list read backwards: only `0xFF` bytes and no end, or a run of `0xFF`
bytes, a byte `b ≠ 0xFF` that it increments, and the rest unchanged. -/
theorem prefixEndBytesLoop_spec (r : List UInt8) :
    (prefixEndBytesLoop r = none ∧ ∀ x ∈ r, x = 255) ∨
      ∃ t b q, r = t ++ b :: q ∧ (∀ x ∈ t, x = 255) ∧ b ≠ 255 ∧
        prefixEndBytesLoop r = some ((b + 1) :: q) := by
  induction r with
  | nil => exact .inl ⟨rfl, by simp⟩
  | cons x r ih =>
    by_cases hx : x = 255
    · have hloop : prefixEndBytesLoop (x :: r) = prefixEndBytesLoop r := by
        rw [prefixEndBytesLoop, if_neg (not_not.2 hx)]
      rcases ih with ⟨hnone, hall⟩ | ⟨t, b, q, rfl, ht, hb, hsome⟩
      · refine .inl ⟨hloop.trans hnone, ?_⟩
        simpa [hx] using hall
      · refine .inr ⟨x :: t, b, q, rfl, ?_, hb, hloop.trans hsome⟩
        simpa [hx] using ht
    · exact .inr ⟨[], x, r, rfl, by simp, hx, by rw [prefixEndBytesLoop, if_pos hx]⟩

/-- The keys at least `pre` and below `PrefixEndBytes pre`, no end bounding nothing, are the keys
that carry `pre`. -/
theorem le_and_lt_prefixEndBytes_iff (pre k : List UInt8) :
    pre ≤ k ∧ (∀ e ∈ prefixEndBytes pre, k < e) ↔ pre <+: k := by
  have htop : ∀ t : List UInt8, (∀ x ∈ t, x = 255) → ∀ x ∈ t, ∀ y, ¬x < y := by
    intro t ht x hx y
    rw [ht x hx]
    exact UInt8.not_255_lt y
  by_cases hnil : pre.length = 0
  · rw [List.length_eq_zero_iff.1 hnil]
    simp [prefixEndBytes, List.nil_le]
  · rcases prefixEndBytesLoop_spec pre.reverse with ⟨hnone, hall⟩ | ⟨t, b, q, hrev, ht, hb, hsome⟩
    · -- every byte is `0xFF`: no end, and the keys above `pre` are those that carry it
      rw [prefixEndBytes, if_neg hnil, hnone, Option.map_none]
      simp only [Option.mem_def, reduceCtorEq, false_implies, implies_true, and_true]
      exact PrefixRange.le_iff_isPrefix_of_forall_top
        (htop pre fun x hx => hall x (List.mem_reverse.2 hx))
    · -- `pre` is `q ++ b :: t` read forwards, and the end is `q ++ [b + 1]`
      have hpre : pre = q.reverse ++ b :: t.reverse := by
        rw [← List.reverse_reverse pre, hrev]
        simp
      rw [prefixEndBytes, if_neg hnil, hsome, Option.map_some]
      simp only [Option.mem_def, Option.some.injEq, forall_eq']
      rw [List.reverse_cons, hpre]
      exact PrefixRange.le_and_lt_iff_isPrefix (UInt8.lt_add_one_of_ne hb)
        (fun y hy => UInt8.not_lt_add_one_of_lt hb hy)
        (htop t.reverse fun x hx => ht x (List.mem_reverse.1 hx))

theorem isKeyInDomain_prefixEndBytes_iff (pre k : List UInt8) :
    isKeyInDomain k (some pre) (prefixEndBytes pre) = true ↔ pre <+: k := by
  rw [isKeyInDomain_iff, ← le_and_lt_prefixEndBytes_iff]
  simp only [Option.mem_def, Option.some.injEq, forall_eq']

/-- The keys that carry `pre` lie below `PrefixEndBytes pre`. -/
theorem lt_prefixEndBytes {pre k : List UInt8} (h : pre <+: k) : ∀ e ∈ prefixEndBytes pre, k < e :=
  ((le_and_lt_prefixEndBytes_iff pre k).2 h).2

/-! ### Prefix iterators of a store -/

variable {σ ι V : Type}

/-- `KVStorePrefixIterator`. -/
def kvStorePrefixIterator (kvs : KVStore σ ι (List UInt8) V) (s : σ) (pre : List UInt8) : ι :=
  kvs.iterator s (some pre) (prefixEndBytes pre) true

/-- `KVStoreReversePrefixIterator`. -/
def kvStoreReversePrefixIterator (kvs : KVStore σ ι (List UInt8) V) (s : σ) (pre : List UInt8) : ι :=
  kvs.iterator s (some pre) (prefixEndBytes pre) false

/-- An entry is in the listing of the range of a prefix exactly when it is an entry whose key carries
the prefix. -/
theorem mem_listing_prefixEndBytes {m : MemDB (List UInt8) V} {pre k : List UInt8} {v : V}
    {ascending : Bool} :
    (k, v) ∈ m.listing (some pre) (prefixEndBytes pre) ascending ↔ m.lookup k = some v ∧ pre <+: k := by
  rw [((MemDB.listing_isListing m _ _ ascending).2 k v), isKeyInDomain_prefixEndBytes_iff]

/-! ### `prefix.Store` -/

namespace Prefix

/-- `cpIncr`, which wraps `PrefixEndBytes`. -/
def cpIncr (bz : List UInt8) : Option (List UInt8) := prefixEndBytes bz

/-- `stripPrefix`, on a key that carries the prefix. -/
def stripPrefix (key pre : List UInt8) : List UInt8 := key.drop pre.length

/-- `prefixIterator`: the parent's iterator, and whether it still points at a key with the prefix. -/
structure PrefixIterator (ι : Type) where
  iter : ι
  valid : Bool

/-- `newPrefixIterator`. -/
def newPrefixIterator (c : Cursor ι (List UInt8 × V)) (pre : List UInt8) (parent : ι) :
    PrefixIterator ι :=
  ⟨parent, (c.cur parent).any fun kv => pre.isPrefixOf kv.1⟩

/-- `Valid`, `Key`, `Value` and `Next` of `prefixIterator`: a key is shown without the prefix, and the
iterator turns invalid at the first key of the parent that does not carry the prefix. -/
def prefixIteratorCursor (c : Cursor ι (List UInt8 × V)) (pre : List UInt8) :
    Cursor (PrefixIterator ι) (List UInt8 × V) where
  cur it := if it.valid then (c.cur it.iter).map fun kv => (stripPrefix kv.1 pre, kv.2) else none
  next it :=
    let iter := c.next it.iter
    ⟨iter, it.valid && (c.cur iter).any fun kv => pre.isPrefixOf kv.1⟩

/-- The end that `Iterator` and `ReverseIterator` pass to the parent: `cpIncr` of the prefix for a
`nil` end, the prefixed end otherwise. -/
def newEnd (pre : List UInt8) (end_ : Option (List UInt8)) : Option (List UInt8) :=
  match end_ with
  | none => cpIncr pre
  | some e => some (pre ++ e)

/-- `prefix.Store` over a parent store: every key is the prefix followed by the key given. -/
def store (parent : KVStore σ ι (List UInt8) V) (pre : List UInt8) :
    KVStore σ (PrefixIterator ι) (List UInt8) V where
  get s key := parent.get s (pre ++ key)
  set s key value := parent.set s (pre ++ key) value
  delete s key := parent.delete s (pre ++ key)
  iterator s start end_ ascending :=
    newPrefixIterator parent.cursor pre
      (parent.iterator s (some (pre ++ start.getD [])) (newEnd pre end_) ascending)
  cursor := prefixIteratorCursor parent.cursor pre

/-- An entry of the parent shown by the prefix store. -/
def stripEntry (pre : List UInt8) (e : List UInt8 × V) : List UInt8 × V := (stripPrefix e.1 pre, e.2)

@[simp] theorem stripPrefix_append (pre k : List UInt8) : stripPrefix (pre ++ k) pre = k :=
  List.drop_left

theorem eq_append_stripPrefix {pre k : List UInt8} (h : pre <+: k) : k = pre ++ stripPrefix k pre :=
  (List.prefix_iff_eq_append.1 h).symm

/-- Over a parent that walks entries all carrying the prefix, the prefix iterator shows them without
it. -/
theorem yields_newPrefixIterator {c : Cursor ι (List UInt8 × V)} {pre : List UInt8} {it : ι}
    {L : List (List UInt8 × V)} (h : c.Yields it L) (hpre : ∀ e ∈ L, pre <+: e.1) :
    (prefixIteratorCursor c pre).Yields (newPrefixIterator c pre it) (L.map (stripEntry pre)) := by
  induction h with
  | nil hcur =>
    refine .nil ?_
    simp [prefixIteratorCursor, newPrefixIterator, hcur]
  | @cons it a L hcur _ ih =>
    have ha : pre.isPrefixOf a.1 = true := List.isPrefixOf_iff_prefix.2 (hpre a List.mem_cons_self)
    -- the parent's entry carries the prefix, so the iterator stays valid and steps with the parent
    have hnext : (prefixIteratorCursor c pre).next (newPrefixIterator c pre it) =
        newPrefixIterator c pre (c.next it) := by
      simp [prefixIteratorCursor, newPrefixIterator, hcur, ha]
    refine .cons ?_ ?_
    · simp [prefixIteratorCursor, newPrefixIterator, hcur, ha, stripEntry]
    · rw [hnext]
      exact ih fun e he => hpre e (List.mem_cons_of_mem _ he)

/-- Within the prefixed bounds the parent holds only keys that carry the prefix. -/
theorem isPrefix_of_isKeyInDomain {pre start k : List UInt8} {end_ : Option (List UInt8)}
    (h : isKeyInDomain k (some (pre ++ start)) (newEnd pre end_) = true) : pre <+: k := by
  rw [isKeyInDomain_iff] at h
  simp only [Option.mem_def, Option.some.injEq, forall_eq'] at h
  obtain ⟨hstart, hend⟩ := h
  refine (le_and_lt_prefixEndBytes_iff pre k).1
    ⟨List.le_trans (PrefixRange.le_of_isPrefix (List.prefix_append pre start)) hstart, ?_⟩
  cases end_ with
  | none => exact hend
  | some e =>
    -- the end `pre ++ e` carries the prefix, so it lies below `PrefixEndBytes pre`
    have hlt : k < pre ++ e := hend _ rfl
    exact fun E hE => List.lt_trans hlt (lt_prefixEndBytes (List.prefix_append pre e) E hE)

/-- A key with the prefix lies in the prefixed bounds exactly when the key without it lies in the
bounds given. -/
theorem isKeyInDomain_append (pre k : List UInt8) (start end_ : Option (List UInt8)) :
    isKeyInDomain (pre ++ k) (some (pre ++ start.getD [])) (newEnd pre end_) = true ↔
      isKeyInDomain k start end_ = true := by
  have hstart : pre ++ start.getD [] ≤ pre ++ k ↔ ∀ s ∈ start, s ≤ k := by
    rw [PrefixRange.append_le_append_iff_left]
    cases start with
    | none => simp [List.nil_le]
    | some s => simp
  have hend : (∀ e ∈ newEnd pre end_, pre ++ k < e) ↔ ∀ e ∈ end_, k < e := by
    cases end_ with
    | none => exact ⟨fun _ e he => absurd he (by simp), fun _ => lt_prefixEndBytes (List.prefix_append pre k)⟩
    | some e => simp [newEnd, PrefixRange.append_lt_append_iff_left]
  rw [isKeyInDomain_iff, isKeyInDomain_iff, ← hstart, ← hend]
  simp

/-- Dropping a common prefix keeps the order of two keys. -/
theorem stripPrefix_lt_iff {pre a b : List UInt8} (ha : pre <+: a) (hb : pre <+: b) :
    stripPrefix a pre < stripPrefix b pre ↔ a < b := by
  conv_rhs => rw [eq_append_stripPrefix ha, eq_append_stripPrefix hb]
  exact (PrefixRange.append_lt_append_iff_left pre).symm

/-- Entries that all carry the prefix stay in strict key order, either way, once it is dropped. -/
theorem strictKeys_map_stripEntry {pre : List UInt8} {L : List (List UInt8 × V)}
    (hpre : ∀ e ∈ L, pre <+: e.1) (ascending : Bool)
    (h : if ascending then Overlay.StrictKeys L else Overlay.StrictKeys (K := (List UInt8)ᵒᵈ) L) :
    if ascending then Overlay.StrictKeys (L.map (stripEntry pre))
    else Overlay.StrictKeys (K := (List UInt8)ᵒᵈ) (L.map (stripEntry pre)) := by
  cases ascending with
  | true =>
    rw [if_pos rfl] at h ⊢
    exact List.pairwise_map.2 (h.imp_of_mem fun ha hb hlt => (stripPrefix_lt_iff (hpre _ ha) (hpre _ hb)).2 hlt)
  | false =>
    rw [if_neg Bool.false_ne_true] at h ⊢
    exact List.pairwise_map.2 (h.imp_of_mem fun ha hb hlt => (stripPrefix_lt_iff (hpre _ hb) (hpre _ ha)).2 hlt)

section Store

variable {parent : KVStore σ ι (List UInt8) V} {R : σ → MemDB (List UInt8) V → Prop}

/-- The iterator of the prefix store over a parent that behaves as `m` shows the parent's listing
between the prefixed bounds, without the prefix. -/
theorem yields_store_iterator (hp : Implements parent R) {pre : List UInt8} {s : σ}
    {m : MemDB (List UInt8) V} (hR : R s m) (start end_ : Option (List UInt8)) (ascending : Bool) :
    (store parent pre).cursor.Yields ((store parent pre).iterator s start end_ ascending)
      ((m.listing (some (pre ++ start.getD [])) (newEnd pre end_) ascending).map (stripEntry pre)) := by
  refine yields_newPrefixIterator (hp.iterator _ _ ascending hR) fun e he => ?_
  have he' : (e.1, e.2) ∈ m.listing (some (pre ++ start.getD [])) (newEnd pre end_) ascending := he
  exact isPrefix_of_isKeyInDomain ((MemDB.listing_isListing m _ _ ascending).2 e.1 e.2 |>.1 he').2

/-- What the prefix store shows: the entries of `m` under the prefixed keys in the bounds given. -/
theorem mem_map_stripEntry_listing {m : MemDB (List UInt8) V} {pre k : List UInt8} {v : V}
    {start end_ : Option (List UInt8)} {ascending : Bool} :
    (k, v) ∈ (m.listing (some (pre ++ start.getD [])) (newEnd pre end_) ascending).map (stripEntry pre) ↔
      m.lookup (pre ++ k) = some v ∧ isKeyInDomain k start end_ = true := by
  have hL := (MemDB.listing_isListing m (some (pre ++ start.getD [])) (newEnd pre end_) ascending).2
  rw [List.mem_map]
  constructor
  · rintro ⟨⟨k', v'⟩, he, hstrip⟩
    obtain ⟨hlook, hdom⟩ := (hL k' v').1 he
    simp only [stripEntry, Prod.mk.injEq] at hstrip
    obtain ⟨hk, rfl⟩ := hstrip
    rw [eq_append_stripPrefix (isPrefix_of_isKeyInDomain hdom), hk] at hlook hdom
    exact ⟨hlook, (isKeyInDomain_append pre k start end_).1 hdom⟩
  · rintro ⟨hlook, hdom⟩
    exact ⟨(pre ++ k, v), (hL _ _).2 ⟨hlook, (isKeyInDomain_append pre k start end_).2 hdom⟩,
      by simp [stripEntry]⟩

/-- A parent state that behaves as `m`, seen through the prefix: it behaves as every map that holds at
each key what `m` holds at that key prefixed. -/
def PrefixRel (R : σ → MemDB (List UInt8) V → Prop) (pre : List UInt8) (s : σ)
    (m' : MemDB (List UInt8) V) : Prop :=
  ∃ m, R s m ∧ ∀ k, m'.lookup k = m.lookup (pre ++ k)

theorem PrefixRel.iterator (hp : Implements parent R) {pre : List UInt8} {s : σ}
    {m' : MemDB (List UInt8) V} (h : PrefixRel R pre s m') (start end_ : Option (List UInt8))
    (ascending : Bool) :
    (store parent pre).cursor.Yields ((store parent pre).iterator s start end_ ascending)
      (m'.listing start end_ ascending) := by
  obtain ⟨m, hR, hm⟩ := h
  set L := m.listing (some (pre ++ start.getD [])) (newEnd pre end_) ascending with hL
  have hpre : ∀ e ∈ L, pre <+: e.1 := fun e he =>
    isPrefix_of_isKeyInDomain ((MemDB.listing_isListing m _ _ ascending).2 e.1 e.2 |>.1 he).2
  have hlist : m'.IsListing start end_ ascending (L.map (stripEntry pre)) := by
    refine ⟨strictKeys_map_stripEntry hpre ascending (MemDB.listing_isListing m _ _ ascending).1,
      fun k v => ?_⟩
    rw [mem_map_stripEntry_listing, hm]
  rw [(MemDB.listing_isListing m' start end_ ascending).unique hlist]
  exact yields_store_iterator hp hR start end_ ascending

/-- Over a parent that behaves as a map, the prefix store behaves as the map it shows through the
prefix: under every operation. -/
theorem prefixStore_implements (hp : Implements parent R) (pre : List UInt8) :
    Implements (store parent pre) (PrefixRel R pre) where
  get k := by
    rintro ⟨m, hR, hm⟩
    obtain ⟨hget, hR'⟩ := hp.get (pre ++ k) hR
    exact ⟨hget.trans (hm k).symm, m, hR', hm⟩
  set k v := by
    rintro ⟨m, hR, hm⟩
    refine ⟨m.insert (pre ++ k) v, hp.set (pre ++ k) v hR, fun k' => ?_⟩
    by_cases hk : k' = k
    · subst hk
      simp
    · rw [Finmap.lookup_insert_of_ne _ hk, Finmap.lookup_insert_of_ne _ (by simpa using hk), hm]
  delete k := by
    rintro ⟨m, hR, hm⟩
    refine ⟨m.erase (pre ++ k), hp.delete (pre ++ k) hR, fun k' => ?_⟩
    by_cases hk : k' = k
    · subst hk
      simp
    · rw [Finmap.lookup_erase_ne hk, Finmap.lookup_erase_ne (by simpa using hk), hm]
  iterator start end_ ascending h := h.iterator hp start end_ ascending

end Store

end Prefix

/-- `PrefixEndBytes` bounds exactly the keys with a prefix: a key lies at or above `p` and below
`PrefixEndBytes p` (no end bounding nothing) exactly when `p` is a prefix of it.  So over a store that
behaves as a map `m`, `KVStorePrefixIterator` and `KVStoreReversePrefixIterator` walk exactly the
entries whose key carries `p`, in increasing and in decreasing key order, and the unbounded iterators
of `prefix.Store` walk exactly the entries of `m` under keys `p ++ k`, shown as `k`. -/
theorem prefixEndBytes_prefix_range :
    (∀ pre k : List UInt8, isKeyInDomain k (some pre) (prefixEndBytes pre) = true ↔ pre <+: k) ∧
    ∀ {σ ι V : Type} (st : KVStore σ ι (List UInt8) V) (R : σ → MemDB (List UInt8) V → Prop),
      Implements st R → ∀ s m, R s m → ∀ pre : List UInt8,
        (∃ L, st.cursor.Yields (kvStorePrefixIterator st s pre) L ∧ Overlay.StrictKeys L ∧
          ∀ k v, (k, v) ∈ L ↔ m.lookup k = some v ∧ pre <+: k) ∧
        (∃ L, st.cursor.Yields (kvStoreReversePrefixIterator st s pre) L ∧
          Overlay.StrictKeys (K := (List UInt8)ᵒᵈ) L ∧
          ∀ k v, (k, v) ∈ L ↔ m.lookup k = some v ∧ pre <+: k) ∧
        ∀ ascending : Bool, ∃ L,
          (Prefix.store st pre).cursor.Yields ((Prefix.store st pre).iterator s none none ascending) L ∧
          (if ascending then Overlay.StrictKeys L else Overlay.StrictKeys (K := (List UInt8)ᵒᵈ) L) ∧
          ∀ k v, (k, v) ∈ L ↔ m.lookup (pre ++ k) = some v := by
  refine ⟨isKeyInDomain_prefixEndBytes_iff, fun st R hp s m hR pre => ⟨?_, ?_, fun ascending => ?_⟩⟩
  · exact ⟨_, hp.iterator _ _ true hR, (MemDB.listing_isListing m _ _ true).1,
      fun _ _ => mem_listing_prefixEndBytes⟩
  · exact ⟨_, hp.iterator _ _ false hR, (MemDB.listing_isListing m _ _ false).1,
      fun _ _ => mem_listing_prefixEndBytes⟩
  · -- every key the parent walks between `p` and `cpIncr p` carries `p`
    have hpre : ∀ e ∈ m.listing (some (pre ++ [])) (Prefix.newEnd pre none) ascending, pre <+: e.1 :=
      fun e he => Prefix.isPrefix_of_isKeyInDomain
        ((MemDB.listing_isListing m _ _ ascending).2 e.1 e.2 |>.1 he).2
    refine ⟨_, Prefix.yields_store_iterator hp hR none none ascending,
      Prefix.strictKeys_map_stripEntry hpre ascending (MemDB.listing_isListing m _ _ ascending).1,
      fun k v => ?_⟩
    rw [Prefix.mem_map_stripEntry_listing]
    simp [isKeyInDomain]

/-- A map with two keys under the prefix `[1, 255]`, one just below it, and `[2]`, the first key past
`PrefixEndBytes [1, 255] = [2]`. -/
def prefixSample : MemDB (List UInt8) Nat :=
  (((∅ : MemDB (List UInt8) Nat).insert [1, 254, 9] 1).insert [1, 255] 2 |>.insert [1, 255, 0, 4] 3)
    |>.insert [2] 4

theorem prefixEndBytes_prefix_range_memDB :
    Implements (memDB (K := List UInt8) (V := Nat)) Eq ∧
      ∃ L, (memDB (K := List UInt8) (V := Nat)).cursor.Yields
        (kvStorePrefixIterator memDB prefixSample [1, 255]) L ∧ Overlay.StrictKeys L ∧
        ∀ k v, (k, v) ∈ L ↔ prefixSample.lookup k = some v ∧ [1, 255] <+: k :=
  ⟨memDB_implements,
    (prefixEndBytes_prefix_range.2 memDB Eq memDB_implements prefixSample prefixSample rfl [1, 255]).1⟩

end CosmosSdk
