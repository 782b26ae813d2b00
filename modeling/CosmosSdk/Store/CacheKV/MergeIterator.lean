import CosmosSdk.Store.Types

/-!
# The cache merge iterator

`cacheMergeIterator` (`store/cachekv/mergeiterator.go`) walks the parent's iterator and the sorted
list of the cache's dirty items side by side; a dirty item with a `nil` value is a delete that hides
the parent's entry under the same key.  Its state here is the parent iterator's state and the cache
items not yet consumed (the `memIterator`, whose state is its item list).

`Valid`, `Key` and `Value` first run `skipUntilExistsOrInvalid`, which advances past deletes; the model
folds that into `cur`, and `Next` runs it again before stepping, as the code does.  Dropping the
receiver update of `Valid`/`Key`/`Value` is sound because the skip is idempotent
(`skipUntilExistsOrInvalid_idem`): a second skip from the skipped state changes nothing.

* `skip_spec`: after the skip the parent still yields a sorted listing, the cache items are a sorted
  suffix of what they were, their overlay is unchanged, and the head of the overlay is visible.
* `yields_overlay`: from a parent yielding `P` and cache items `C`, both strictly sorted, the merge
  iterator yields exactly `Overlay.overlay P C`, ascending; `yields_overlay_desc` is the same for a
  descending walk.
-/

namespace CosmosSdk.CacheKV

open Overlay

/-- `cacheMergeIterator`: the parent iterator, the cache items still ahead, and the direction. -/
structure CacheMergeIterator (ι K V : Type) where
  parent : ι
  cache : List (K × Option V)
  ascending : Bool

variable {ι K V : Type} [LinearOrder K]

/-- `cacheMergeIterator.compare`: `bytes.Compare`, negated for a descending walk. -/
def compareKeys (ascending : Bool) (a b : K) : Ordering :=
  if ascending then compare a b else (compare a b).swap

theorem compareKeys_swap (ascending : Bool) (a b : K) :
    (compareKeys ascending a b).swap = compareKeys ascending b a := by
  cases ascending
  · simp only [compareKeys, Bool.false_eq_true, ↓reduceIte, Ordering.swap_swap]
    exact Std.OrientedOrd.eq_swap
  · exact Std.OrientedOrd.eq_swap.symm

/-- `skipCacheDeletes(until)`: drop the deletes at the front of the cache items whose key comes
before `until` (all of them when `until` is `nil`). -/
def skipCacheDeletes (ascending : Bool) (untilKey : Option K) :
    List (K × Option V) → List (K × Option V)
  | [] => []
  | (key, value) :: items =>
    if value.isNone && untilKey.all (fun u => compareKeys ascending key u == .lt) then
      skipCacheDeletes ascending untilKey items
    else (key, value) :: items

theorem length_skipCacheDeletes_le (ascending : Bool) (untilKey : Option K) (items : List (K × Option V)) :
    (skipCacheDeletes ascending untilKey items).length ≤ items.length := by
  induction items with
  | nil => simp [skipCacheDeletes]
  | cons item items ih =>
    unfold skipCacheDeletes
    split <;> simp; omega

/-- `skipUntilExistsOrInvalid`: advance past the deletes until the current entry exists or the
iterator is exhausted; returns the new parent state, the new cache items and whether the iterator is
valid.  Each round that continues consumes a cache item. -/
def skipUntilExistsOrInvalid (pc : Cursor ι (K × V)) (ascending : Bool) (parent : ι)
    (cache : List (K × Option V)) : ι × List (K × Option V) × Bool :=
  match pc.cur parent with
  | none =>
    -- the parent is exhausted: fast-forward the cache
    let cache' := skipCacheDeletes ascending none cache
    (parent, cache', !cache'.isEmpty)
  | some (keyP, _) =>
    match cache with
    | [] => (parent, [], true)
    | (keyC, valueC) :: rest =>
      match _h : compareKeys ascending keyP keyC with
      | .lt => (parent, (keyC, valueC) :: rest, true)
      | .eq =>
        match valueC with
        | none => skipUntilExistsOrInvalid pc ascending (pc.next parent) rest
        | some v => (parent, (keyC, some v) :: rest, true)
      | .gt =>
        match valueC with
        | none => skipUntilExistsOrInvalid pc ascending parent
            (skipCacheDeletes ascending (some keyP) ((keyC, none) :: rest))
        | some v => (parent, (keyC, some v) :: rest, true)
termination_by cache.length
decreasing_by
  · simp
  · -- the delete at the front comes before `keyP`, so it is skipped
    have hlt : compareKeys ascending keyC keyP = .lt := by
      rw [← compareKeys_swap, _h]; rfl
    have hle := length_skipCacheDeletes_le ascending (some keyP) rest
    simp only [skipCacheDeletes, Option.isNone_none, Option.all_some, hlt, beq_self_eq_true,
      Bool.and_self, ↓reduceIte, List.length_cons]
    omega

/-- `Key` and `Value` after the skip: the parent's entry when it comes first, the cache's otherwise,
and the cache's value on a tie. -/
def cur (pc : Cursor ι (K × V)) (it : CacheMergeIterator ι K V) : Option (K × V) :=
  match skipUntilExistsOrInvalid pc it.ascending it.parent it.cache with
  | (_, _, false) => none
  | (parent, cache, true) =>
    match pc.cur parent, cache with
    | none, (keyC, valueC) :: _ => valueC.map (keyC, ·)
    | some entryP, [] => some entryP
    | some (keyP, valueP), (keyC, valueC) :: _ =>
      match compareKeys it.ascending keyP keyC with
      | .lt => some (keyP, valueP)
      | .eq => valueC.map (keyP, ·)
      | .gt => valueC.map (keyC, ·)
    | none, [] => none

/-- `Next` after the skip: advance the side the current entry came from, both on a tie.  On an
exhausted iterator the code panics; the model leaves the skipped state. -/
def next (pc : Cursor ι (K × V)) (it : CacheMergeIterator ι K V) : CacheMergeIterator ι K V :=
  match skipUntilExistsOrInvalid pc it.ascending it.parent it.cache with
  | (parent, cache, _) =>
    match pc.cur parent, cache with
    | none, _ :: rest => { it with parent := parent, cache := rest }
    | some _, [] => { it with parent := pc.next parent, cache := [] }
    | some (keyP, _), (keyC, valueC) :: rest =>
      match compareKeys it.ascending keyP keyC with
      | .lt => { it with parent := pc.next parent, cache := (keyC, valueC) :: rest }
      | .eq => { it with parent := pc.next parent, cache := rest }
      | .gt => { it with parent := parent, cache := rest }
    | none, [] => { it with parent := parent, cache := [] }

/-- The merge iterator as a cursor over the parent's cursor. -/
def mergeCursor (pc : Cursor ι (K × V)) : Cursor (CacheMergeIterator ι K V) (K × V) :=
  ⟨cur pc, next pc⟩

/-- `newCacheMergeIterator(parent, cache, ascending)`. -/
def newCacheMergeIterator (parent : ι) (cache : List (K × Option V)) (ascending : Bool) :
    CacheMergeIterator ι K V :=
  ⟨parent, cache, ascending⟩

/-! ### The skip -/

@[simp] theorem compareKeys_true (a b : K) : compareKeys true a b = compare a b := rfl

theorem skipCacheDeletes_suffix (ascending : Bool) (untilKey : Option K)
    (items : List (K × Option V)) : skipCacheDeletes ascending untilKey items <:+ items := by
  induction items with
  | nil => simp [skipCacheDeletes]
  | cons item items ih =>
    unfold skipCacheDeletes
    split
    · exact ih.trans (List.suffix_cons _ _)
    · exact List.suffix_refl _

/-- Without a bound, the skip stops at an item that is not a delete, or at the end. -/
theorem skipCacheDeletes_none (ascending : Bool) (items : List (K × Option V)) :
    skipCacheDeletes ascending none items = [] ∨
      ∃ k v rest, skipCacheDeletes ascending none items = (k, some v) :: rest := by
  induction items with
  | nil => simp [skipCacheDeletes]
  | cons item items ih =>
    obtain ⟨k, value⟩ := item
    cases value with
    | none => simpa [skipCacheDeletes] using ih
    | some v => exact .inr ⟨k, v, items, by simp [skipCacheDeletes]⟩

/-- The deletes the skip drops come before every parent key, so the overlay does not see them. -/
theorem overlay_skipCacheDeletes {P : List (K × V)} {untilKey : Option K}
    (h : ∀ k, untilKey.all (fun u => compare k u == .lt) = true → ∀ e ∈ P, k < e.1)
    (items : List (K × Option V)) :
    overlay P (skipCacheDeletes true untilKey items) = overlay P items := by
  induction items with
  | nil => simp [skipCacheDeletes]
  | cons item items ih =>
    obtain ⟨k, value⟩ := item
    unfold skipCacheDeletes
    split
    · rename_i hskip
      simp only [Bool.and_eq_true, Option.isNone_iff_eq_none, compareKeys_true] at hskip
      obtain ⟨rfl, hk⟩ := hskip
      rw [ih, overlay_cons_none_of_lt (h k hk)]
    · rfl

/-! ### One round of the skip, case by case -/

section Rounds

variable {pc : Cursor ι (K × V)} {ascending : Bool} {parent : ι} {keyP key : K} {vP : V}
  {items : List (K × Option V)}

theorem skip_of_exhausted (hcur : pc.cur parent = none) (cache : List (K × Option V)) :
    skipUntilExistsOrInvalid pc ascending parent cache =
      (parent, skipCacheDeletes ascending none cache,
        !(skipCacheDeletes ascending none cache).isEmpty) := by
  rw [skipUntilExistsOrInvalid, hcur]

theorem skip_of_nil (hcur : pc.cur parent = some (keyP, vP)) :
    skipUntilExistsOrInvalid pc ascending parent [] = (parent, [], true) := by
  rw [skipUntilExistsOrInvalid, hcur]

theorem skip_of_lt (hcur : pc.cur parent = some (keyP, vP))
    (hcmp : compareKeys ascending keyP key = .lt) (value : Option V) :
    skipUntilExistsOrInvalid pc ascending parent ((key, value) :: items) =
      (parent, (key, value) :: items, true) := by
  rw [skipUntilExistsOrInvalid, hcur]
  dsimp only
  split <;> simp_all

theorem skip_of_eq_none (hcur : pc.cur parent = some (keyP, vP))
    (hcmp : compareKeys ascending keyP key = .eq) :
    skipUntilExistsOrInvalid pc ascending parent ((key, none) :: items) =
      skipUntilExistsOrInvalid pc ascending (pc.next parent) items := by
  rw [skipUntilExistsOrInvalid, hcur]
  dsimp only
  split <;> simp_all

theorem skip_of_gt_none (hcur : pc.cur parent = some (keyP, vP))
    (hcmp : compareKeys ascending keyP key = .gt) :
    skipUntilExistsOrInvalid pc ascending parent ((key, none) :: items) =
      skipUntilExistsOrInvalid pc ascending parent
        (skipCacheDeletes ascending (some keyP) ((key, none) :: items)) := by
  rw [skipUntilExistsOrInvalid, hcur]
  dsimp only
  split <;> simp_all

theorem skip_of_some (hcur : pc.cur parent = some (keyP, vP)) (v : V) :
    skipUntilExistsOrInvalid pc ascending parent ((key, some v) :: items) =
      (parent, (key, some v) :: items, true) := by
  rw [skipUntilExistsOrInvalid, hcur]
  dsimp only
  split <;> simp_all

end Rounds

theorem skipCacheDeletes_none_idem (ascending : Bool) (items : List (K × Option V)) :
    skipCacheDeletes ascending none (skipCacheDeletes ascending none items) =
      skipCacheDeletes ascending none items := by
  rcases skipCacheDeletes_none ascending items with h | ⟨k, v, rest, h⟩ <;> rw [h] <;>
    simp [skipCacheDeletes]

/-- Skipping twice is skipping once: the receiver updates that `Valid`, `Key` and `Value` make are
invisible to the calls that follow them. -/
theorem skipUntilExistsOrInvalid_idem (pc : Cursor ι (K × V)) (ascending : Bool) (parent : ι)
    (cache : List (K × Option V)) :
    skipUntilExistsOrInvalid pc ascending (skipUntilExistsOrInvalid pc ascending parent cache).1
        (skipUntilExistsOrInvalid pc ascending parent cache).2.1 =
      skipUntilExistsOrInvalid pc ascending parent cache := by
  induction parent, cache using skipUntilExistsOrInvalid.induct pc ascending with
  | case1 parent cache hcur =>
    rw [skip_of_exhausted hcur, skip_of_exhausted hcur, skipCacheDeletes_none_idem]
  | case2 parent keyP vP hcur => rw [skip_of_nil hcur, skip_of_nil hcur]
  | case3 parent keyP vP hcur key value items hcmp =>
    rw [skip_of_lt hcur hcmp, skip_of_lt hcur hcmp]
  | case4 parent keyP vP hcur key items hcmp ih => rwa [skip_of_eq_none hcur hcmp]
  | case5 parent keyP vP hcur key items hcmp v => rw [skip_of_some hcur v, skip_of_some hcur v]
  | case6 parent keyP vP hcur key items hcmp ih => rwa [skip_of_gt_none hcur hcmp]
  | case7 parent keyP vP hcur key items hcmp v => rw [skip_of_some hcur v, skip_of_some hcur v]

/-- After the skip the current entry is in view: the parent's entry comes first, or the cache item
in front is not a delete; `valid` says whether anything is left. -/
def Settled : List (K × V) → List (K × Option V) → Bool → Prop
  | [], [], valid => valid = false
  | [], (_, value) :: _, valid => value.isSome ∧ valid = true
  | _ :: _, [], valid => valid = true
  | (keyP, _) :: _, (keyC, value) :: _, valid => (keyP < keyC ∨ value.isSome) ∧ valid = true

/-- The state of an ascending merge: the parent yields the strictly sorted listing `P` and the cache
items are strictly sorted. -/
structure MergeState (pc : Cursor ι (K × V)) (parent : ι) (cache : List (K × Option V))
    (P : List (K × V)) : Prop where
  yields : pc.Yields parent P
  sortedP : StrictKeys P
  sortedC : StrictKeys cache

theorem MergeState.tail {pc : Cursor ι (K × V)} {parent : ι} {cache : List (K × Option V)}
    {e : K × V} {P : List (K × V)} (h : MergeState pc parent cache (e :: P)) :
    MergeState pc (pc.next parent) cache P :=
  ⟨h.yields.next, (strictKeys_cons.1 h.sortedP).2, h.sortedC⟩

theorem MergeState.drop {pc : Cursor ι (K × V)} {parent : ι} {cache cache' : List (K × Option V)}
    {P : List (K × V)} (h : MergeState pc parent cache P) (hs : cache' <:+ cache) :
    MergeState pc parent cache' P :=
  ⟨h.yields, h.sortedP, h.sortedC.sublist hs.sublist⟩

/-- The skip keeps the merge state and the overlay, and leaves the current entry in view. -/
theorem skip_spec {pc : Cursor ι (K × V)} {parent : ι} {cache : List (K × Option V)}
    {P : List (K × V)} (h : MergeState pc parent cache P) :
    ∃ P', MergeState pc (skipUntilExistsOrInvalid pc true parent cache).1
        (skipUntilExistsOrInvalid pc true parent cache).2.1 P' ∧
      overlay P' (skipUntilExistsOrInvalid pc true parent cache).2.1 = overlay P cache ∧
      Settled P' (skipUntilExistsOrInvalid pc true parent cache).2.1
        (skipUntilExistsOrInvalid pc true parent cache).2.2 := by
  induction parent, cache using skipUntilExistsOrInvalid.induct pc true generalizing P with
  | case1 parent cache hcur =>
    -- the parent is exhausted, so `P` is empty and only the cache's deletes are dropped
    have hP : P = [] := by simpa [hcur] using h.yields.cur_eq.symm
    subst hP
    rw [skip_of_exhausted hcur]
    refine ⟨[], h.drop (skipCacheDeletes_suffix _ _ _),
      overlay_skipCacheDeletes (by simp) cache, ?_⟩
    rcases skipCacheDeletes_none true cache with hs | ⟨k, v, rest, hs⟩ <;> simp [hs, Settled]
  | case2 parent keyP vP hcur =>
    rw [skip_of_nil hcur]
    obtain ⟨Pt, rfl⟩ := h.yields.eq_cons_of_cur hcur
    exact ⟨_, h, rfl, rfl⟩
  | case3 parent keyP vP hcur key value items hcmp =>
    obtain ⟨Pt, rfl⟩ := h.yields.eq_cons_of_cur hcur
    rw [skip_of_lt hcur hcmp]
    exact ⟨_, h, rfl, .inl (compare_lt_iff_lt.1 hcmp), rfl⟩
  | case4 parent keyP vP hcur key items hcmp ih =>
    obtain ⟨Pt, rfl⟩ := h.yields.eq_cons_of_cur hcur
    -- a delete of the parent's current key: both sides step, and the overlay drops the key
    have hov : overlay ((keyP, vP) :: Pt) ((key, none) :: items) = overlay Pt items := by
      rw [overlay_cons_cons, show compare keyP key = .eq from hcmp]
      simp
    rw [skip_of_eq_none hcur hcmp, hov]
    exact ih (h.tail.drop (List.suffix_cons _ _))
  | case5 parent keyP vP hcur key items hcmp v =>
    obtain ⟨Pt, rfl⟩ := h.yields.eq_cons_of_cur hcur
    rw [skip_of_some hcur v]
    exact ⟨_, h, rfl, .inr rfl, rfl⟩
  | case6 parent keyP vP hcur key items hcmp ih =>
    obtain ⟨Pt, rfl⟩ := h.yields.eq_cons_of_cur hcur
    -- deletes before the parent's current key: skip them, the overlay does not see them
    have hbelow : ∀ k, (some keyP).all (fun u => compare k u == .lt) = true →
        ∀ e ∈ (keyP, vP) :: Pt, k < e.1 := by
      intro k hk e he
      have hk' : k < keyP := compare_lt_iff_lt.1 (by simpa using hk)
      rcases List.mem_cons.1 he with rfl | he
      · exact hk'
      · exact hk'.trans ((strictKeys_cons.1 h.sortedP).1 e he)
    rw [skip_of_gt_none hcur hcmp, ← overlay_skipCacheDeletes hbelow]
    exact ih (h.drop (skipCacheDeletes_suffix _ _ _))
  | case7 parent keyP vP hcur key items hcmp v =>
    obtain ⟨Pt, rfl⟩ := h.yields.eq_cons_of_cur hcur
    rw [skip_of_some hcur v]
    exact ⟨_, h, rfl, .inr rfl, rfl⟩

/-! ### What the merge shows -/

section Shows

variable {pc : Cursor ι (K × V)} {it : CacheMergeIterator ι K V} {P : List (K × V)}

/-- The ascending merge shows the head of the overlay. -/
theorem cur_spec (hasc : it.ascending = true) (h : MergeState pc it.parent it.cache P) :
    cur pc it = (overlay P it.cache).head? := by
  obtain ⟨P', hms, hov, hset⟩ := skip_spec h
  rw [← hov]
  unfold cur
  rw [hasc]
  generalize skipUntilExistsOrInvalid pc true it.parent it.cache = r at hms hset ⊢
  obtain ⟨parent, cache, valid⟩ := r
  have hcur := hms.yields.cur_eq
  dsimp only at hms hset hcur ⊢
  rcases P' with _ | ⟨⟨keyP, valueP⟩, P'⟩ <;> rcases cache with _ | ⟨⟨keyC, valueC⟩, rest⟩
  · simp only [Settled] at hset
    simp [hset]
  · obtain ⟨v, rfl⟩ := Option.isSome_iff_exists.1 hset.1
    simp [hset.2, hcur, overlay_nil_cons]
  · simp only [Settled] at hset
    simp [hset, hcur]
  · obtain ⟨hset, rfl⟩ := hset
    simp only [hcur, List.head?_cons, compareKeys_true, overlay_cons_cons]
    rcases lt_trichotomy keyP keyC with hlt | rfl | hgt
    · simp [compare_lt_iff_lt.2 hlt]
    · obtain ⟨v, rfl⟩ := Option.isSome_iff_exists.1 (hset.resolve_left (lt_irrefl _))
      simp
    · obtain ⟨v, rfl⟩ := Option.isSome_iff_exists.1 (hset.resolve_left hgt.not_gt)
      simp [compare_gt_iff_gt.2 hgt]

/-- `Next` keeps the direction. -/
theorem next_ascending (it : CacheMergeIterator ι K V) : (next pc it).ascending = it.ascending := by
  unfold next
  split
  split <;> try rfl
  split <;> rfl

/-- After showing `e`, the ascending merge steps to a state whose overlay is the rest. -/
theorem next_spec (hasc : it.ascending = true) (h : MergeState pc it.parent it.cache P)
    {e : K × V} {L : List (K × V)} (hL : overlay P it.cache = e :: L) :
    ∃ P'', MergeState pc (next pc it).parent (next pc it).cache P'' ∧
      overlay P'' (next pc it).cache = L := by
  obtain ⟨P', hms, hov, hset⟩ := skip_spec h
  rw [← hov] at hL
  unfold next
  rw [hasc]
  generalize skipUntilExistsOrInvalid pc true it.parent it.cache = r at hms hset hL ⊢
  obtain ⟨parent, cache, valid⟩ := r
  have hcur := hms.yields.cur_eq
  dsimp only at hms hset hcur hL ⊢
  rcases P' with _ | ⟨⟨keyP, valueP⟩, P'⟩ <;> rcases cache with _ | ⟨⟨keyC, valueC⟩, rest⟩
  · simp at hL
  · -- only the cache is left: step it
    obtain ⟨v, rfl⟩ := Option.isSome_iff_exists.1 hset.1
    simp only [overlay_nil_cons, Option.map_some, Option.toList_some, List.singleton_append,
      List.cons.injEq] at hL
    simp only [hcur, List.head?_nil]
    exact ⟨[], hms.drop (List.suffix_cons _ _), hL.2⟩
  · -- only the parent is left: step it
    simp only [overlay_nil_right, List.cons.injEq] at hL
    simp only [hcur, List.head?_cons]
    exact ⟨P', hms.tail, by simpa using hL.2⟩
  · obtain ⟨hset, rfl⟩ := hset
    simp only [hcur, List.head?_cons, compareKeys_true]
    rw [overlay_cons_cons] at hL
    rcases lt_trichotomy keyP keyC with hlt | rfl | hgt
    · -- the parent's entry comes first
      simp only [compare_lt_iff_lt.2 hlt, List.cons.injEq] at hL ⊢
      exact ⟨P', hms.tail, hL.2⟩
    · -- a tie: both step, the cache's value was shown
      obtain ⟨v, rfl⟩ := Option.isSome_iff_exists.1 (hset.resolve_left (lt_irrefl _))
      simp only [compare_eq_iff_eq.2 rfl, Option.map_some, Option.toList_some, List.singleton_append,
        List.cons.injEq] at hL ⊢
      exact ⟨P', hms.tail.drop (List.suffix_cons _ _), hL.2⟩
    · -- the cache's entry comes first
      obtain ⟨v, rfl⟩ := Option.isSome_iff_exists.1 (hset.resolve_left hgt.not_gt)
      simp only [compare_gt_iff_gt.2 hgt, Option.map_some, Option.toList_some,
        List.singleton_append, List.cons.injEq] at hL ⊢
      exact ⟨_, hms.drop (List.suffix_cons _ _), hL.2⟩

/-- From a parent yielding the sorted listing `P` and sorted cache items, the ascending merge yields
exactly the overlay of the cache items on `P`. -/
theorem yields_overlay (hasc : it.ascending = true) (h : MergeState pc it.parent it.cache P) :
    (mergeCursor pc).Yields it (overlay P it.cache) := by
  generalize hL : overlay P it.cache = L
  induction L generalizing it P with
  | nil => exact .nil (by show cur pc it = none; rw [cur_spec hasc h, hL]; rfl)
  | cons e L ih =>
    obtain ⟨P'', h'', hL''⟩ := next_spec hasc h hL
    exact .cons (by show cur pc it = some e; rw [cur_spec hasc h, hL]; rfl)
      (ih ((next_ascending it).trans hasc) h'' hL'')

end Shows

/-! ### The descending walk

A descending walk over `K` is an ascending walk over the dual order `Kᵒᵈ`: the code's comparison
for `ascending = false` is the dual comparison, so every step of the two walks agrees. -/

section Descending

theorem compareKeys_false (a b : K) :
    compareKeys false a b = compareKeys (K := Kᵒᵈ) true a b := by
  show (compare a b).swap = compare b a
  exact Std.OrientedOrd.eq_swap.symm

theorem skipCacheDeletes_false (untilKey : Option K) (items : List (K × Option V)) :
    skipCacheDeletes false untilKey items = skipCacheDeletes (K := Kᵒᵈ) true untilKey items := by
  induction items with
  | nil => rfl
  | cons item items ih =>
    obtain ⟨k, value⟩ := item
    show (if value.isNone && untilKey.all (fun u => compareKeys false k u == .lt) then
        skipCacheDeletes false untilKey items else (k, value) :: items) =
      (if value.isNone && untilKey.all (fun u => compareKeys (K := Kᵒᵈ) true k u == .lt) then
        skipCacheDeletes (K := Kᵒᵈ) true untilKey items else (k, value) :: items)
    simp only [compareKeys_false, ih]
    rfl

theorem skip_false (pc : Cursor ι (K × V)) (parent : ι) (cache : List (K × Option V)) :
    skipUntilExistsOrInvalid pc false parent cache =
      skipUntilExistsOrInvalid (K := Kᵒᵈ) pc true parent cache := by
  induction parent, cache using skipUntilExistsOrInvalid.induct pc false with
  | case1 parent cache hcur =>
    refine (skip_of_exhausted hcur cache).trans
      (Eq.trans ?_ (skip_of_exhausted (K := Kᵒᵈ) hcur cache).symm)
    rw [skipCacheDeletes_false]
    rfl
  | case2 parent keyP vP hcur =>
    exact (skip_of_nil hcur).trans (skip_of_nil (K := Kᵒᵈ) hcur).symm
  | case3 parent keyP vP hcur key value items hcmp =>
    exact (skip_of_lt hcur hcmp value).trans
      (skip_of_lt (K := Kᵒᵈ) hcur ((compareKeys_false keyP key).symm.trans hcmp) value).symm
  | case4 parent keyP vP hcur key items hcmp ih =>
    exact (skip_of_eq_none hcur hcmp).trans (ih.trans
      (skip_of_eq_none (K := Kᵒᵈ) hcur ((compareKeys_false keyP key).symm.trans hcmp)).symm)
  | case5 parent keyP vP hcur key items hcmp v =>
    exact (skip_of_some hcur v).trans (skip_of_some (K := Kᵒᵈ) hcur v).symm
  | case6 parent keyP vP hcur key items hcmp ih =>
    refine (skip_of_gt_none hcur hcmp).trans (ih.trans (Eq.trans ?_
      (skip_of_gt_none (K := Kᵒᵈ) hcur ((compareKeys_false keyP key).symm.trans hcmp)).symm))
    rw [skipCacheDeletes_false]
    rfl
  | case7 parent keyP vP hcur key items hcmp v =>
    exact (skip_of_some hcur v).trans (skip_of_some (K := Kᵒᵈ) hcur v).symm

variable {pc : Cursor ι (K × V)}

theorem cur_false {it : CacheMergeIterator ι K V} (hasc : it.ascending = false) :
    cur pc it = cur (K := Kᵒᵈ) pc { it with ascending := true } := by
  unfold cur
  rw [hasc, skip_false]
  simp only [compareKeys_false]
  rfl

theorem next_false {it : CacheMergeIterator ι K V} (hasc : it.ascending = false) :
    next pc it = { next (K := Kᵒᵈ) pc { it with ascending := true } with ascending := false } := by
  unfold next
  rw [hasc, skip_false]
  generalize skipUntilExistsOrInvalid (K := Kᵒᵈ) pc true it.parent it.cache = r
  obtain ⟨parent, cache, valid⟩ := r
  dsimp only
  rcases pc.cur parent with _ | ⟨keyP, vP⟩ <;> rcases cache with _ | ⟨⟨keyC, vC⟩, rest⟩ <;> try rfl
  dsimp only
  rw [compareKeys_false keyP keyC]
  cases compareKeys (K := Kᵒᵈ) true keyP keyC <;> rfl

/-- A descending walk shows what the ascending walk over the dual order shows. -/
theorem yields_of_dual {it : CacheMergeIterator ι K V} {L : List (K × V)}
    (hasc : it.ascending = false)
    (h : (mergeCursor (K := Kᵒᵈ) pc).Yields { it with ascending := true } L) :
    (mergeCursor pc).Yields it L := by
  induction L generalizing it with
  | nil => exact .nil ((cur_false hasc).trans h.cur_eq)
  | cons e L ih =>
    refine .cons ((cur_false hasc).trans h.cur_eq) ?_
    -- the dual walk's next state is the descending walk's next state with the flag set
    have hflag : (next (K := Kᵒᵈ) pc { it with ascending := true }).ascending = true :=
      next_ascending (K := Kᵒᵈ) _
    have heq : { next pc it with ascending := true } =
        next (K := Kᵒᵈ) pc { it with ascending := true } := by
      rw [next_false hasc]
      generalize next (K := Kᵒᵈ) pc { it with ascending := true } = N at hflag ⊢
      obtain ⟨parent, cache, ascending⟩ := N
      cases hflag
      rfl
    have hasc' : (next pc it).ascending = false := (next_ascending it).trans hasc
    exact ih hasc' (heq ▸ h.next)

/-- From a parent yielding a listing by strictly descending keys and cache items sorted the same way,
the descending merge yields exactly their overlay for the dual order. -/
theorem yields_overlay_desc {it : CacheMergeIterator ι K V} {P : List (K × V)}
    (hasc : it.ascending = false) (h : MergeState (K := Kᵒᵈ) pc it.parent it.cache P) :
    (mergeCursor pc).Yields it (overlay (K := Kᵒᵈ) P it.cache) :=
  yields_of_dual hasc (yields_overlay (K := Kᵒᵈ)
    (show ({ it with ascending := true } : CacheMergeIterator ι K V).ascending = true from rfl) h)

end Descending

/-! ### The merge iterator cannot run forever

Over a bounded parent, the parent's measure plus the number of cache items ahead bounds the merge:
the skip never increases it, and a step from a valid state consumes a parent entry or a cache item. -/

section Bounded

variable {pc : Cursor ι (K × V)} (b : pc.Bounded)

theorem size_skip_le (ascending : Bool) (parent : ι) (cache : List (K × Option V)) :
    b.size (skipUntilExistsOrInvalid pc ascending parent cache).1 +
        (skipUntilExistsOrInvalid pc ascending parent cache).2.1.length ≤
      b.size parent + cache.length := by
  induction parent, cache using skipUntilExistsOrInvalid.induct pc ascending with
  | case1 parent cache hcur =>
    rw [skip_of_exhausted hcur]
    have := length_skipCacheDeletes_le ascending none cache
    dsimp only
    omega
  | case2 parent keyP vP hcur => rw [skip_of_nil hcur]
  | case3 parent keyP vP hcur key value items hcmp => rw [skip_of_lt hcur hcmp]
  | case4 parent keyP vP hcur key items hcmp ih =>
    rw [skip_of_eq_none hcur hcmp]
    have := b.size_next_lt parent _ hcur
    simp only [List.length_cons]
    omega
  | case5 parent keyP vP hcur key items hcmp v => rw [skip_of_some hcur v]
  | case6 parent keyP vP hcur key items hcmp ih =>
    rw [skip_of_gt_none hcur hcmp]
    have := length_skipCacheDeletes_le ascending (some keyP) ((key, none) :: items)
    omega
  | case7 parent keyP vP hcur key items hcmp v => rw [skip_of_some hcur v]

theorem size_next_lt {it : CacheMergeIterator ι K V} {e : K × V} (h : cur pc it = some e) :
    b.size (next pc it).parent + (next pc it).cache.length <
      b.size it.parent + it.cache.length := by
  have hskip := size_skip_le b it.ascending it.parent it.cache
  unfold cur at h
  unfold next
  generalize skipUntilExistsOrInvalid pc it.ascending it.parent it.cache = r at h hskip ⊢
  obtain ⟨parent, cache, valid⟩ := r
  dsimp only at h hskip ⊢
  cases valid
  · cases h
  rcases hcur : pc.cur parent with _ | ⟨keyP, vP⟩ <;>
    rcases cache with _ | ⟨⟨keyC, vC⟩, rest⟩ <;> simp only [hcur] at h ⊢
  · cases h
  · simp only [List.length_cons] at hskip
    omega
  · have := b.size_next_lt parent _ hcur
    simp only [List.length_nil] at hskip ⊢
    omega
  · -- the side the entry came from steps; on a tie both do
    have := b.size_next_lt parent _ hcur
    simp only [List.length_cons] at hskip
    cases compareKeys it.ascending keyP keyC <;> simp only [List.length_cons] <;> omega

/-- The merge iterator over a bounded parent is bounded. -/
def mergeBounded : (mergeCursor pc).Bounded where
  size it := b.size it.parent + it.cache.length
  size_next_lt _ _ h := size_next_lt b h

end Bounded

end CosmosSdk.CacheKV
