import Mathlib.Data.Finmap
import Mathlib.Algebra.BigOperators.Group.Finset.Basic
import Mathlib.Tactic.Abel
import Mathlib.Algebra.Order.BigOperators.Group.Finset

/-!
# Sums over finite maps

`Finmap.sumBy m f` adds `f a b` over the entries `a ↦ b` of a finite map.  Writing one key changes
the sum by the difference of the summands there (`sumBy_insert`, `sumBy_erase`), which is how a
ledger kept beside a map is shown to stay its sum.  Maps with the same summands have the same sum
(`sumBy_congr`); a sum of nonnegative summands bounds each of them (`entryValue_le_sumBy`), and is zero
only when every summand is (`entryValue_eq_zero_of_sumBy_eq_zero`).  Sums add summand by summand
(`sumBy_add`), so the summands of keys in a list of distinct groups add up group by group
(`sumBy_ite_mem`); over pairs as keys, the summands under one first coordinate are those a walk of its
second coordinates meets (`sumBy_fst_eq_sum`, `sum_filterMap_lookup`).
-/

namespace Finmap

variable {α β M : Type*} [DecidableEq α] [AddCommGroup M]

/-- The sum of `f` over the entries of `m`. -/
def sumBy (m : Finmap fun _ : α => β) (f : α → β → M) : M :=
  ∑ a ∈ m.keys, ((m.lookup a).map (f a)).getD 0

/-- The summand at `a`: zero where `m` has no entry. -/
def entryValue (m : Finmap fun _ : α => β) (f : α → β → M) (a : α) : M :=
  ((m.lookup a).map (f a)).getD 0

theorem sumBy_eq_sum_of_subset {m : Finmap fun _ : α => β} {f : α → β → M} {S : Finset α}
    (hS : m.keys ⊆ S) : m.sumBy f = ∑ a ∈ S, m.entryValue f a := by
  apply Finset.sum_subset hS
  intro a _ ha
  rw [Finmap.mem_keys, ← Finmap.lookup_eq_none] at ha
  simp [ha]

/-- Two maps that agree off `a` have sums that differ by their summands at `a`. -/
theorem sumBy_of_agree {m m' : Finmap fun _ : α => β} {f : α → β → M} (a : α)
    (h : ∀ b, b ≠ a → m'.lookup b = m.lookup b) :
    m'.sumBy f = m.sumBy f - m.entryValue f a + m'.entryValue f a := by
  -- `insert` alone would be `Finmap.insert` here
  set S : Finset α := Insert.insert a (m.keys ∪ m'.keys)
  have hm : m.keys ⊆ S := fun b hb => Finset.mem_insert_of_mem (Finset.mem_union_left m'.keys hb)
  have hm' : m'.keys ⊆ S := fun b hb => Finset.mem_insert_of_mem (Finset.mem_union_right m.keys hb)
  have ha : a ∈ S := Finset.mem_insert_self a _
  have hrest : ∑ b ∈ S.erase a, m'.entryValue f b = ∑ b ∈ S.erase a, m.entryValue f b :=
    Finset.sum_congr rfl fun b hb => by rw [entryValue, entryValue, h b (Finset.ne_of_mem_erase hb)]
  rw [sumBy_eq_sum_of_subset hm, sumBy_eq_sum_of_subset hm', ← Finset.add_sum_erase S _ ha,
    ← Finset.add_sum_erase S _ ha, hrest]
  abel

theorem sumBy_congr {m m' : Finmap fun _ : α => β} {f f' : α → β → M}
    (h : ∀ a, m'.entryValue f' a = m.entryValue f a) : m'.sumBy f' = m.sumBy f := by
  have hm : m.keys ⊆ m.keys ∪ m'.keys := Finset.subset_union_left
  have hm' : m'.keys ⊆ m.keys ∪ m'.keys := Finset.subset_union_right
  rw [sumBy_eq_sum_of_subset hm, sumBy_eq_sum_of_subset hm']
  exact Finset.sum_congr rfl fun a _ => h a

theorem sumBy_insert (m : Finmap fun _ : α => β) (f : α → β → M) (a : α) (b : β) :
    (m.insert a b).sumBy f = m.sumBy f - m.entryValue f a + f a b := by
  rw [sumBy_of_agree a fun c hc => Finmap.lookup_insert_of_ne m hc]
  simp [entryValue, Finmap.lookup_insert]

theorem sumBy_erase (m : Finmap fun _ : α => β) (f : α → β → M) (a : α) :
    (m.erase a).sumBy f = m.sumBy f - m.entryValue f a := by
  rw [sumBy_of_agree a fun c hc => Finmap.lookup_erase_ne hc]
  simp [entryValue, Finmap.lookup_erase]

@[simp] theorem sumBy_zero (m : Finmap fun _ : α => β) : m.sumBy (fun _ _ => (0 : M)) = 0 := by
  refine Finset.sum_eq_zero fun a _ => ?_
  cases m.lookup a <;> rfl

theorem sumBy_add (m : Finmap fun _ : α => β) (f g : α → β → M) :
    m.sumBy (fun a b => f a b + g a b) = m.sumBy f + m.sumBy g := by
  unfold sumBy
  rw [← Finset.sum_add_distrib]
  refine Finset.sum_congr rfl fun a _ => ?_
  cases m.lookup a <;> simp

/-- The sum splits into the summands of the keys where `p` holds and those where it does not. -/
theorem sumBy_eq_add (m : Finmap fun _ : α => β) (f : α → β → M) (p : α → Prop) [DecidablePred p] :
    m.sumBy f = m.sumBy (fun a b => if p a then f a b else 0) + m.sumBy fun a b => if p a then 0 else f a b := by
  rw [← sumBy_add]
  congr 1
  funext a b
  split_ifs <;> simp

/-- Over a list of distinct groups, the summands of the keys in those groups add up group by group. -/
theorem sumBy_ite_mem {ι : Type*} [DecidableEq ι] (m : Finmap fun _ : α => β) (f : α → β → M)
    (group : α → ι) : ∀ {l : List ι}, l.Nodup →
      m.sumBy (fun a b => if group a ∈ l then f a b else 0) =
        (l.map fun i => m.sumBy fun a b => if group a = i then f a b else 0).sum
  | [], _ => by simp
  | i :: l, hnodup => by
    rw [List.nodup_cons] at hnodup
    rw [List.map_cons, List.sum_cons, ← sumBy_ite_mem m f group hnodup.2, ← sumBy_add]
    congr 1
    funext a b
    by_cases hi : group a = i
    · -- a key of the group `i` is in no later group
      have hrest : group a ∉ l := by
        rw [hi]
        exact hnodup.1
      rw [if_pos (List.mem_cons.2 (.inl hi)), if_pos hi, if_neg hrest, add_zero]
    · simp only [List.mem_cons, hi, false_or, if_false, zero_add]

section Pairs

variable {ι κ : Type*} [DecidableEq ι] [DecidableEq κ] {m : Finmap fun _ : ι × κ => β}
  (f : ι × κ → β → M) (i : ι)

/-- A walk of second coordinates that picks up the entry under `i` of each adds the summands it meets. -/
theorem sum_filterMap_lookup (l : List κ) :
    ((l.filterMap fun a => (m.lookup (i, a)).map (a, ·)).map fun e => f (i, e.1) e.2).sum =
      (l.map fun a => m.entryValue f (i, a)).sum := by
  induction l with
  | nil => rfl
  | cons a l ih =>
    rw [List.filterMap_cons, List.map_cons, List.sum_cons, ← ih, entryValue]
    cases m.lookup (i, a) <;> simp

/-- The summands under the first coordinate `i`, over a duplicate-free list of exactly the second
coordinates with an entry under `i`. -/
theorem sumBy_fst_eq_sum {l : List κ} (hnodup : l.Nodup) (hl : ∀ a, a ∈ l ↔ (i, a) ∈ m) :
    m.sumBy (fun key b => if key.1 = i then f key b else 0) = (l.map fun a => m.entryValue f (i, a)).sum := by
  have hkeys : m.keys.filter (·.1 = i) = l.toFinset.image (i, ·) := by
    ext ⟨j, a⟩
    simp only [Finset.mem_filter, Finmap.mem_keys, Finset.mem_image, List.mem_toFinset, Prod.mk.injEq]
    constructor
    · rintro ⟨hmem, rfl⟩
      exact ⟨a, (hl a).2 hmem, rfl, rfl⟩
    · rintro ⟨a, ha, rfl, rfl⟩
      exact ⟨(hl a).1 ha, rfl⟩
  calc m.sumBy (fun key b => if key.1 = i then f key b else 0)
      = ∑ key ∈ m.keys, if key.1 = i then m.entryValue f key else 0 := by
        refine Finset.sum_congr rfl fun key _ => ?_
        unfold entryValue
        split_ifs with h <;> cases m.lookup key <;> simp [h]
    _ = ∑ key ∈ m.keys.filter (·.1 = i), m.entryValue f key := (Finset.sum_filter _ _).symm
    _ = (l.map fun a => m.entryValue f (i, a)).sum := by
        rw [hkeys, Finset.sum_image fun _ _ _ _ h => (Prod.mk.inj h).2, List.sum_toFinset _ hnodup]

end Pairs

section Nonneg

variable [PartialOrder M] [IsOrderedAddMonoid M] {m : Finmap fun _ : α => β} {f : α → β → M}

omit [IsOrderedAddMonoid M] in
theorem entryValue_nonneg (hf : ∀ a b, m.lookup a = some b → 0 ≤ f a b) (a : α) :
    0 ≤ m.entryValue f a := by
  unfold entryValue
  cases h : m.lookup a with
  | none => exact le_rfl
  | some b => exact hf a b h

theorem entryValue_le_sumBy (hf : ∀ a b, m.lookup a = some b → 0 ≤ f a b) (a : α) :
    m.entryValue f a ≤ m.sumBy f := by
  rw [sumBy_eq_sum_of_subset (Finset.subset_insert a m.keys)]
  exact Finset.single_le_sum (fun b _ => entryValue_nonneg hf b) (Finset.mem_insert_self a _)

theorem entryValue_eq_zero_of_sumBy_eq_zero (hf : ∀ a b, m.lookup a = some b → 0 ≤ f a b)
    (h : m.sumBy f = 0) (a : α) : m.entryValue f a = 0 :=
  le_antisymm (h ▸ entryValue_le_sumBy hf a) (entryValue_nonneg hf a)

end Nonneg

end Finmap
