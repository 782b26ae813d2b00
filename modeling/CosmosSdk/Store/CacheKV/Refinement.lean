import CosmosSdk.Store.CacheKV.Store

/-!
# The cache is a transparent write-back cache

A cache state stands for a plain map `m` (`CacheRel`) when its parent stands for some map `mp`, every
clean entry copies `mp`, and `m` is `mp` with the dirty entries applied (`cacheView`).  Over a parent
that implements plain maps, every operation keeps this relation:

* `Get` and `Has` return what `m` holds (`CacheRel.get`), `Set` and `Delete` update `m`;
* `Iterator` and `ReverseIterator` yield exactly the listing of `m` in the domain (`CacheRel.iterator`):
  the merge iterator's output is the overlay of the dirty items on the parent's listing, and that
  overlay is the listing of `m`;
* `Write` leaves an empty cache over a parent that stands for `m` itself (`CacheRel.write`).

So the cache over an implementation is again one (`cacheStore_implements`), which gives nesting.
-/

namespace CosmosSdk.CacheKV

open Overlay

variable {σ ι K V : Type} [LinearOrder K]

/-- What the cache shows at `key` over a parent holding `mp`. -/
def cacheView (cache : AList (fun _ : K => CValue V)) (mp : MemDB K V) (key : K) : Option V :=
  match cache.lookup key with
  | some cacheValue => cacheValue.value
  | none => mp.lookup key

/-- The cache entry `cacheValue` at `key` is consistent with a parent holding `mp`: a clean entry
copies the parent, a delete holds `nil`, a dirty entry that is not a delete holds a value. -/
def EntryInv (mp : MemDB K V) (key : K) (cacheValue : CValue V) : Prop :=
  (cacheValue.dirty = false → cacheValue.deleted = false ∧ cacheValue.value = mp.lookup key) ∧
    (cacheValue.deleted = true → cacheValue.value = none) ∧
    (cacheValue.dirty = true → cacheValue.deleted = false → cacheValue.value.isSome)

/-- Every entry of the cache is consistent with `mp`. -/
def CacheInv (cache : AList (fun _ : K => CValue V)) (mp : MemDB K V) : Prop :=
  ∀ key cacheValue, cache.lookup key = some cacheValue → EntryInv mp key cacheValue

/-- The cache state `s` stands for the map `m`: its parent stands for some `mp` under `Rp`, the cache
is consistent with `mp`, and `m` is what the cache shows over `mp`. -/
def CacheRel (Rp : σ → MemDB K V → Prop) (s : Store σ K V) (m : MemDB K V) : Prop :=
  ∃ mp, Rp s.parent mp ∧ CacheInv s.cache mp ∧ ∀ key, m.lookup key = cacheView s.cache mp key

theorem cacheView_insert (cache : AList (fun _ : K => CValue V)) (mp : MemDB K V) (key j : K)
    (cacheValue : CValue V) :
    cacheView (cache.insert key cacheValue) mp j =
      if j = key then cacheValue.value else cacheView cache mp j := by
  by_cases hj : j = key
  · subst hj
    simp [cacheView, AList.lookup_insert]
  · simp [cacheView, AList.lookup_insert_ne hj, hj]

theorem cacheInv_insert {cache : AList (fun _ : K => CValue V)} {mp : MemDB K V}
    (h : CacheInv cache mp) {key : K} {cacheValue : CValue V} (hv : EntryInv mp key cacheValue) :
    CacheInv (cache.insert key cacheValue) mp := by
  intro j cv hj
  by_cases hjk : j = key
  · subst hjk
    rw [AList.lookup_insert] at hj
    cases hj
    exact hv
  · rw [AList.lookup_insert_ne hjk] at hj
    exact h j cv hj

omit [LinearOrder K] in
@[simp] theorem newStore_cache (parent : σ) : (newStore parent : Store σ K V).cache = ∅ := rfl

omit [LinearOrder K] in
@[simp] theorem newStore_parent (parent : σ) : (newStore parent : Store σ K V).parent = parent := rfl

/-- A fresh cache over a parent standing for `m` stands for `m`. -/
theorem cacheRel_newStore {Rp : σ → MemDB K V → Prop} {parent : σ} {m : MemDB K V}
    (h : Rp parent m) : CacheRel Rp (newStore parent) m :=
  ⟨m, h, fun _ _ hk => by simp at hk, fun key => by simp [cacheView]⟩

section Operations

variable {p : KVStore σ ι K V} {Rp : σ → MemDB K V → Prop} {s : Store σ K V} {m : MemDB K V}

/-- A write of a dirty entry at `key` keeps the relation, for the map updated at `key`. -/
private theorem cacheRel_setCacheValue (h : CacheRel Rp s m) {key : K} {value : Option V}
    {deleted : Bool} (hv : ∀ mp, EntryInv mp key ⟨value, deleted, true⟩) {m' : MemDB K V}
    (hm' : ∀ j, m'.lookup j = if j = key then value else m.lookup j) :
    CacheRel Rp (setCacheValue s key value deleted true) m' := by
  obtain ⟨mp, hpar, hinv, hview⟩ := h
  refine ⟨mp, hpar, cacheInv_insert hinv (hv mp), fun j => ?_⟩
  rw [hm', setCacheValue, cacheView_insert, hview]

theorem CacheRel.set (h : CacheRel Rp s m) (key : K) (value : V) :
    CacheRel Rp (CacheKV.set s key value) (m.insert key value) :=
  cacheRel_setCacheValue h (fun _ => ⟨by simp, by simp, fun _ _ => rfl⟩) fun j => by
    by_cases hj : j = key
    · subst hj; simp
    · simp [Finmap.lookup_insert_of_ne _ hj, hj]

theorem CacheRel.delete (h : CacheRel Rp s m) (key : K) :
    CacheRel Rp (CacheKV.delete s key) (m.erase key) :=
  cacheRel_setCacheValue h (fun _ => ⟨by simp, fun _ => rfl, by simp⟩) fun j => by
    by_cases hj : j = key
    · subst hj; simp
    · simp [Finmap.lookup_erase_ne hj, hj]

/-- `Get` returns what `m` holds, and a miss fills the cache with a clean copy of the parent. -/
theorem CacheRel.get (hp : Implements p Rp) (h : CacheRel Rp s m) (key : K) :
    (CacheKV.get p s key).1 = m.lookup key ∧ CacheRel Rp (CacheKV.get p s key).2 m := by
  obtain ⟨mp, hpar, hinv, hview⟩ := h
  unfold CacheKV.get
  cases hc : s.cache.lookup key with
  | some cacheValue =>
    refine ⟨?_, mp, hpar, hinv, hview⟩
    rw [hview, cacheView, hc]
  | none =>
    obtain ⟨hvalue, hpar'⟩ := hp.get key hpar
    generalize p.get s.parent key = r at hvalue hpar'
    obtain ⟨value, parent⟩ := r
    dsimp only at hvalue hpar' ⊢
    have hmiss : m.lookup key = mp.lookup key := by rw [hview, cacheView, hc]
    refine ⟨hvalue.trans hmiss.symm, mp, hpar', cacheInv_insert hinv ?_, fun j => ?_⟩
    · exact ⟨fun _ => ⟨rfl, hvalue⟩, (fun h => by cases h), (fun h => by cases h)⟩
    · rw [setCacheValue, cacheView_insert]
      split
      · rename_i hj
        rw [hj, hmiss, hvalue]
      · exact hview j

theorem CacheRel.has (hp : Implements p Rp) (h : CacheRel Rp s m) (key : K) :
    (CacheKV.has p s key).1 = (m.lookup key).isSome ∧ CacheRel Rp (CacheKV.has p s key).2 m := by
  obtain ⟨hv, hs⟩ := h.get hp key
  exact ⟨by simp [CacheKV.has, hv], hs⟩

end Operations

/-! ### Iterators -/

section Iterators

variable {s : Store σ K V} {start end_ : Option K}

/-- The mem iterator holds the dirty entries of the domain, each with its value (`nil` for a
delete). -/
theorem mem_newMemIterator {ascending : Bool} {key : K} {value : Option V} :
    (key, value) ∈ newMemIterator start end_ (dirtyItems s start end_ ascending) ↔
      ∃ cacheValue, s.cache.lookup key = some cacheValue ∧ cacheValue.dirty = true ∧
        cacheValue.value = value ∧ isKeyInDomain key start end_ = true := by
  simp only [newMemIterator, dirtyItems, List.mem_filter, List.mem_mergeSort, List.mem_map,
    Bool.and_eq_true, Prod.mk.injEq]
  constructor
  · rintro ⟨⟨⟨k, cv⟩, ⟨hmem, hdirty, -⟩, rfl, rfl⟩, hdom⟩
    exact ⟨cv, AList.mem_lookup_iff.2 hmem, hdirty, rfl, hdom⟩
  · rintro ⟨cv, hcv, hdirty, rfl, hdom⟩
    exact ⟨⟨⟨key, cv⟩, ⟨AList.mem_lookup_iff.1 hcv, hdirty, hdom⟩, rfl, rfl⟩, hdom⟩

/-- The keys of the dirty items are distinct: they are keys of the Go map. -/
private theorem nodup_dirtyItems (ascending : Bool) :
    ((dirtyItems s start end_ ascending).map (·.1)).Nodup := by
  have hkeys : (s.cache.entries.map Sigma.fst).Nodup := s.cache.nodupKeys
  refine ((List.mergeSort_perm _ _).map _).nodup_iff.2 ?_
  rw [List.map_map]
  exact hkeys.sublist (List.filter_sublist.map _)

/-- `sort.Slice` leaves the dirty items of an ascending walk ordered by key. -/
private theorem pairwise_dirtyItems_asc :
    (dirtyItems s start end_ true).Pairwise (fun a b => a.1 ≤ b.1) := by
  unfold dirtyItems
  simp only [if_true]
  refine List.Pairwise.imp (fun h => of_decide_eq_true h) (List.pairwise_mergeSort ?_ ?_ _)
  · intro a b c hab hbc
    simp only [decide_eq_true_eq] at *
    exact le_trans hab hbc
  · intro a b
    simpa using le_total a.1 b.1

/-- … and those of a descending walk in the opposite order. -/
private theorem pairwise_dirtyItems_desc :
    (dirtyItems s start end_ false).Pairwise (fun a b => b.1 ≤ a.1) := by
  unfold dirtyItems
  simp only [Bool.false_eq_true, if_false]
  refine List.Pairwise.imp (fun h => of_decide_eq_true h) (List.pairwise_mergeSort ?_ ?_ _)
  · intro a b c hab hbc
    simp only [decide_eq_true_eq] at *
    exact le_trans hbc hab
  · intro a b
    simpa using le_total b.1 a.1

theorem strictKeys_memIterator :
    StrictKeys (newMemIterator start end_ (dirtyItems s start end_ true)) :=
  List.Pairwise.filter _ (strictKeys_of_pairwise_le (K := K) pairwise_dirtyItems_asc
    (nodup_dirtyItems true))

theorem strictKeys_memIterator_desc :
    StrictKeys (K := Kᵒᵈ)
      (newMemIterator (K := K) start end_ (dirtyItems (K := K) s start end_ false)) := by
  have hp : (dirtyItems (K := K) s start end_ false).Pairwise (fun a b => b.1 ≤ a.1) :=
    pairwise_dirtyItems_desc
  have hn : ((dirtyItems (K := K) s start end_ false).map (·.1)).Nodup := nodup_dirtyItems false
  exact List.Pairwise.filter _ (strictKeys_of_pairwise_le (K := Kᵒᵈ) hp hn)

/-- The entries of the overlay of the dirty items on the parent's listing are the entries of the map
the cache shows, in the domain. -/
private theorem mem_overlay_dirtyItems {m mp : MemDB K V}
    (hinv : CacheInv s.cache mp) (hview : ∀ key, m.lookup key = cacheView s.cache mp key)
    {ascending : Bool} {P ov : List (K × V)}
    (hP : ∀ k v, (k, v) ∈ P ↔ mp.lookup k = some v ∧ isKeyInDomain k start end_ = true)
    (hov : ∀ k v, (k, v) ∈ ov ↔
      (k, some v) ∈ newMemIterator start end_ (dirtyItems s start end_ ascending) ∨
        ((k, v) ∈ P ∧ ∀ o, (k, o) ∉ newMemIterator start end_ (dirtyItems s start end_ ascending)))
    (k : K) (v : V) : (k, v) ∈ ov ↔ m.lookup k = some v ∧ isKeyInDomain k start end_ = true := by
  rw [hov, hview, hP]
  simp only [mem_newMemIterator]
  cases hc : s.cache.lookup k with
  | none => simp [cacheView, hc]
  | some cv =>
    have hentry := hinv k cv hc
    cases hd : cv.dirty
    · -- a clean entry copies the parent and is not among the dirty items
      have hcopy := (hentry.1 hd).2
      simp [cacheView, hc, hd, hcopy]
    · -- a dirty entry decides the key on its own
      simp only [cacheView, hc, Option.some.injEq, hd, true_and, exists_eq_left', not_and]
      grind

/-- `Iterator` and `ReverseIterator` on the cache yield exactly the listing of the map it stands
for. -/
theorem CacheRel.iterator {p : KVStore σ ι K V} {Rp : σ → MemDB K V → Prop} {m : MemDB K V}
    (hp : Implements p Rp) (h : CacheRel Rp s m) (start end_ : Option K) (ascending : Bool) :
    (mergeCursor p.cursor).Yields (CacheKV.iterator p s start end_ ascending)
      (m.listing start end_ ascending) := by
  obtain ⟨mp, hpar, hinv, hview⟩ := h
  have hpy := hp.iterator start end_ ascending hpar
  have hPl := mp.listing_isListing start end_ ascending
  cases ascending
  · have hC : StrictKeys (K := Kᵒᵈ)
        (newMemIterator (K := K) start end_ (dirtyItems (K := K) s start end_ false)) :=
      strictKeys_memIterator_desc
    have hy : (mergeCursor p.cursor).Yields (CacheKV.iterator p s start end_ false)
        (overlay (K := Kᵒᵈ) (mp.listing start end_ false)
          (newMemIterator (K := K) start end_ (dirtyItems (K := K) s start end_ false))) :=
      yields_overlay_desc rfl ⟨hpy, hPl.1, hC⟩
    have hl : m.IsListing start end_ false (overlay (K := Kᵒᵈ) (mp.listing start end_ false)
        (newMemIterator (K := K) start end_ (dirtyItems (K := K) s start end_ false))) :=
      ⟨strictKeys_overlay (K := Kᵒᵈ) hPl.1 hC,
        mem_overlay_dirtyItems hinv hview hPl.2 (fun _ _ => mem_overlay (K := Kᵒᵈ) hPl.1 hC)⟩
    rwa [hl.unique (m.listing_isListing start end_ false)] at hy
  · have hC : StrictKeys (newMemIterator start end_ (dirtyItems s start end_ true)) :=
      strictKeys_memIterator
    have hy : (mergeCursor p.cursor).Yields (CacheKV.iterator p s start end_ true)
        (overlay (mp.listing start end_ true)
          (newMemIterator start end_ (dirtyItems s start end_ true))) :=
      yields_overlay rfl ⟨hpy, hPl.1, hC⟩
    have hl : m.IsListing start end_ true (overlay (mp.listing start end_ true)
        (newMemIterator start end_ (dirtyItems s start end_ true))) :=
      ⟨strictKeys_overlay hPl.1 hC,
        mem_overlay_dirtyItems hinv hview hPl.2 (fun _ _ => mem_overlay hPl.1 hC)⟩
    rwa [hl.unique (m.listing_isListing start end_ true)] at hy

end Iterators

/-! ### Write -/

section Write

variable {p : KVStore σ ι K V} {Rp : σ → MemDB K V → Prop}

/-- What `writeKey` does to a parent holding `mp`. -/
def writeKeyMap (cache : AList (fun _ : K => CValue V)) (mp : MemDB K V) (key : K) : MemDB K V :=
  match cache.lookup key with
  | some cacheValue =>
    if cacheValue.deleted then mp.erase key
    else match cacheValue.value with
      | none => mp
      | some value => mp.insert key value
  | none => mp

theorem writeKey_rel (hp : Implements p Rp) (cache : AList (fun _ : K => CValue V)) {parent : σ}
    {mp : MemDB K V} (h : Rp parent mp) (key : K) :
    Rp (writeKey p cache parent key) (writeKeyMap cache mp key) := by
  unfold writeKey writeKeyMap
  rcases cache.lookup key with _ | ⟨value, deleted, dirty⟩
  · exact h
  · cases deleted
    · rcases value with _ | v
      · exact h
      · exact hp.set key v h
    · exact hp.delete key h

theorem foldl_writeKey_rel (hp : Implements p Rp) (cache : AList (fun _ : K => CValue V))
    (keys : List K) {parent : σ} {mp : MemDB K V} (h : Rp parent mp) :
    Rp (keys.foldl (writeKey p cache) parent) (keys.foldl (writeKeyMap cache) mp) := by
  induction keys generalizing parent mp with
  | nil => exact h
  | cons key keys ih => exact ih (writeKey_rel hp cache h key)

/-- Writing a dirty entry sets the parent's value at its key to the entry's value. -/
theorem lookup_writeKeyMap {cache : AList (fun _ : K => CValue V)} {mp mp₀ : MemDB K V}
    (hinv : CacheInv cache mp₀) {key : K} {cacheValue : CValue V}
    (hc : cache.lookup key = some cacheValue) (hd : cacheValue.dirty = true) (j : K) :
    (writeKeyMap cache mp key).lookup j = if j = key then cacheValue.value else mp.lookup j := by
  obtain ⟨-, hdel, hset⟩ := hinv key cacheValue hc
  unfold writeKeyMap
  rw [hc]
  dsimp only
  by_cases hj : j = key
  · subst hj
    cases hdeleted : cacheValue.deleted
    · obtain ⟨v, hv⟩ := Option.isSome_iff_exists.1 (hset hd hdeleted)
      simp [hv]
    · simp [hdel hdeleted]
  · cases cacheValue.deleted
    · rcases cacheValue.value with _ | v <;> simp [hj, Finmap.lookup_insert_of_ne _ hj]
    · simp [hj, Finmap.lookup_erase_ne hj]

theorem lookup_foldl_writeKeyMap {cache : AList (fun _ : K => CValue V)} {mp₀ : MemDB K V}
    (hinv : CacheInv cache mp₀) {keys : List K}
    (hkeys : ∀ key ∈ keys, ∃ cacheValue, cache.lookup key = some cacheValue ∧ cacheValue.dirty = true)
    (mp : MemDB K V) (j : K) :
    (keys.foldl (writeKeyMap cache) mp).lookup j =
      if j ∈ keys then (cache.lookup j).bind CValue.value else mp.lookup j := by
  induction keys generalizing mp with
  | nil => simp
  | cons key keys ih =>
    obtain ⟨cv, hc, hd⟩ := hkeys key (List.mem_cons_self ..)
    rw [List.foldl_cons, ih (fun k hk => hkeys k (List.mem_cons_of_mem _ hk)),
      lookup_writeKeyMap hinv hc hd]
    by_cases hjk : j = key
    · subst hjk; simp [hc]
    · by_cases hj : j ∈ keys <;> simp [hj, hjk]

variable {s : Store σ K V} {m : MemDB K V}

/-- `Write` leaves an empty cache over a parent that stands for the map the cache stood for. -/
theorem CacheRel.write (hp : Implements p Rp) (h : CacheRel Rp s m) :
    Rp (CacheKV.write p s).parent m ∧ (CacheKV.write p s).cache = ∅ := by
  obtain ⟨mp, hpar, hinv, hview⟩ := h
  refine ⟨?_, rfl⟩
  set keys := ((s.cache.entries.filter (·.2.dirty)).map (·.1)).mergeSort (· ≤ ·) with hkeys_def
  have hmem : ∀ key, key ∈ keys ↔
      ∃ cacheValue, s.cache.lookup key = some cacheValue ∧ cacheValue.dirty = true := by
    intro key
    simp only [keys, List.mem_mergeSort, List.mem_map, List.mem_filter]
    constructor
    · rintro ⟨⟨k, cv⟩, ⟨hmem, hd⟩, rfl⟩
      exact ⟨cv, AList.mem_lookup_iff.2 hmem, hd⟩
    · rintro ⟨cv, hc, hd⟩
      exact ⟨⟨key, cv⟩, ⟨AList.mem_lookup_iff.1 hc, hd⟩, rfl⟩
  have hfold := foldl_writeKey_rel hp s.cache keys hpar
  have hm : keys.foldl (writeKeyMap s.cache) mp = m := by
    refine Finmap.ext_lookup fun j => ?_
    rw [lookup_foldl_writeKeyMap hinv (fun key hk => (hmem key).1 hk), hview, cacheView]
    cases hc : s.cache.lookup j with
    | none => simp [hmem, hc]
    | some cv =>
      cases hd : cv.dirty
      · simp [hmem, hc, hd, ((hinv j cv hc).1 hd).2]
      · simp [hmem, hc, hd]
  rw [← hm]
  exact hfold

/-- After `Write` the cache stands for the same map, now held by its parent. -/
theorem CacheRel.of_write (hp : Implements p Rp) (h : CacheRel Rp s m) :
    CacheRel Rp (CacheKV.write p s) m := by
  obtain ⟨hpar, hcache⟩ := h.write hp
  exact ⟨m, hpar, fun key cv hk => by simp [hcache] at hk, fun key => by simp [cacheView, hcache]⟩

end Write

/-- A cache over an implementation of plain maps is one itself, so caches nest. -/
theorem cacheStore_implements {p : KVStore σ ι K V} {Rp : σ → MemDB K V → Prop}
    (hp : Implements p Rp) : Implements (cacheStore p) (CacheRel Rp) where
  get key h := h.get hp key
  set key value h := h.set key value
  delete key h := h.delete key
  iterator start end_ ascending h := h.iterator hp start end_ ascending

/-! ### Runs of operations -/

/-- The operations a user of the cache performs. -/
inductive Op (K V : Type) where
  | get (key : K)
  | has (key : K)
  | set (key : K) (value : V)
  | delete (key : K)
  | iterator (start end_ : Option K)
  | reverseIterator (start end_ : Option K)
  | write

/-- Running `ops` on the cache over `p` from `s` agrees with running them on the plain map `m`:
`Get` and `Has` return what the map holds; `Iterator` and `ReverseIterator` walk exactly the map's
entries in the domain, each once, by strictly ascending (descending) keys; and after `Write` the cache
is empty over a parent that stands for the map under `Rp`. -/
def Agrees (p : KVStore σ ι K V) (Rp : σ → MemDB K V → Prop) :
    Store σ K V → MemDB K V → List (Op K V) → Prop
  | _, _, [] => True
  | s, m, .get key :: ops =>
    (get p s key).1 = m.lookup key ∧ Agrees p Rp (get p s key).2 m ops
  | s, m, .has key :: ops =>
    (has p s key).1 = (m.lookup key).isSome ∧ Agrees p Rp (has p s key).2 m ops
  | s, m, .set key value :: ops => Agrees p Rp (set s key value) (m.insert key value) ops
  | s, m, .delete key :: ops => Agrees p Rp (delete s key) (m.erase key) ops
  | s, m, .iterator start end_ :: ops =>
    (∃ L, (mergeCursor p.cursor).Yields (iterator p s start end_ true) L ∧
        m.IsListing start end_ true L) ∧ Agrees p Rp s m ops
  | s, m, .reverseIterator start end_ :: ops =>
    (∃ L, (mergeCursor p.cursor).Yields (iterator p s start end_ false) L ∧
        m.IsListing start end_ false L) ∧ Agrees p Rp s m ops
  | s, m, .write :: ops =>
    (Rp (write p s).parent m ∧ (write p s).cache = ∅) ∧ Agrees p Rp (write p s) m ops

/-- Every run from a cache state that stands for `m` agrees with the plain map. -/
theorem agrees_of_cacheRel {p : KVStore σ ι K V} {Rp : σ → MemDB K V → Prop}
    (hp : Implements p Rp) (ops : List (Op K V)) {s : Store σ K V} {m : MemDB K V}
    (h : CacheRel Rp s m) : Agrees p Rp s m ops := by
  induction ops generalizing s m with
  | nil => trivial
  | cons op ops ih =>
    cases op with
    | get key => exact ⟨(h.get hp key).1, ih (h.get hp key).2⟩
    | has key => exact ⟨(h.has hp key).1, ih (h.has hp key).2⟩
    | set key value => exact ih (h.set key value)
    | delete key => exact ih (h.delete key)
    | iterator start end_ =>
      exact ⟨⟨_, h.iterator hp start end_ true, m.listing_isListing start end_ true⟩, ih h⟩
    | reverseIterator start end_ =>
      exact ⟨⟨_, h.iterator hp start end_ false, m.listing_isListing start end_ false⟩, ih h⟩
    | write => exact ⟨h.write hp, ih (h.of_write hp)⟩

theorem cacheKV_transparent (P : MemDB K V) (ops : List (Op K V)) :
    Agrees memDB Eq (newStore P) P ops ∧
      Agrees (cacheStore memDB) (CacheRel Eq) (newStore (newStore P)) P ops :=
  ⟨agrees_of_cacheRel memDB_implements ops (cacheRel_newStore rfl),
    agrees_of_cacheRel (cacheStore_implements memDB_implements) ops
      (cacheRel_newStore (cacheRel_newStore rfl))⟩

end CosmosSdk.CacheKV
