import Mathlib.Data.Finmap

/-!
# Finite maps built by a loop of assignments

A loop `for x in l { m[key x] = val x }` is `l.foldl (fun m x => m.insert (key x) (val x)) m`: the
entries go in in order, so the last entry of each key wins.  A key that no entry carries keeps its
value from the starting map (`lookup_foldl_insert_of_forall_ne`).  With distinct keys each entry is
the one found (`lookup_foldl_insert_of_mem`); with any keys, a value that every entry of its key
carries is found (`lookup_foldl_insert_of_forall_eq`).  Two starting maps that differ only at keys of the
list give the same map (`foldl_insert_congr`).  A loop of deletions `for x in l { delete(m, key x) }`
leaves exactly the keys no entry carries (`lookup_foldl_erase`).
-/

namespace Finmap

variable {α β γ : Type*} [DecidableEq α] (key : γ → α) (val : γ → β)

theorem lookup_foldl_insert_of_forall_ne {a : α} :
    ∀ (l : List γ) (m : Finmap fun _ : α => β), (∀ x ∈ l, key x ≠ a) →
      (l.foldl (fun m x => m.insert (key x) (val x)) m).lookup a = m.lookup a
  | [], _, _ => rfl
  | x :: xs, m, h => by
    rw [List.foldl_cons, lookup_foldl_insert_of_forall_ne xs _ fun y hy => h y (.tail x hy),
      lookup_insert_of_ne _ (h x List.mem_cons_self).symm]

theorem lookup_foldl_insert_of_mem :
    ∀ {l : List γ} (m : Finmap fun _ : α => β), (l.map key).Nodup → ∀ {x}, x ∈ l →
      (l.foldl (fun m x => m.insert (key x) (val x)) m).lookup (key x) = some (val x)
  | y :: ys, m, hnodup, x, hx => by
    rw [List.map_cons, List.nodup_cons] at hnodup
    rw [List.foldl_cons]
    rcases List.mem_cons.1 hx with rfl | hx
    · -- the head is the only entry of its key
      have hne : ∀ z ∈ ys, key z ≠ key x := fun z hz hzx =>
        hnodup.1 (hzx ▸ List.mem_map_of_mem hz)
      rw [lookup_foldl_insert_of_forall_ne key val ys _ hne, lookup_insert]
    · exact lookup_foldl_insert_of_mem _ hnodup.2 hx

/-- A key whose entries all carry one value ends with that value, however often it comes. -/
theorem lookup_foldl_insert_of_forall_eq {a : α} {b : β} :
    ∀ {l : List γ} (m : Finmap fun _ : α => β), (∃ x ∈ l, key x = a) → (∀ x ∈ l, key x = a → val x = b) →
      (l.foldl (fun m x => m.insert (key x) (val x)) m).lookup a = some b
  | y :: ys, m, hmem, hval => by
    rw [List.foldl_cons]
    by_cases hlater : ∃ x ∈ ys, key x = a
    · exact lookup_foldl_insert_of_forall_eq _ hlater fun x hx => hval x (.tail y hx)
    · -- the head is the last entry of the key
      simp only [not_exists, not_and] at hlater
      obtain ⟨x, hx, hkey⟩ := hmem
      have hy : key y = a := by
        rcases List.mem_cons.1 hx with rfl | hx
        · exact hkey
        · exact absurd hkey (hlater x hx)
      rw [lookup_foldl_insert_of_forall_ne key val ys _ hlater, ← hy, lookup_insert,
        hval y List.mem_cons_self hy]

theorem foldl_insert_congr :
    ∀ (l : List γ) {m₁ m₂ : Finmap fun _ : α => β}, (∀ a, a ∉ l.map key → m₁.lookup a = m₂.lookup a) →
      l.foldl (fun m x => m.insert (key x) (val x)) m₁ = l.foldl (fun m x => m.insert (key x) (val x)) m₂
  | [], _, _, h => ext_lookup fun a => h a List.not_mem_nil
  | x :: xs, m₁, m₂, h => by
    simp only [List.foldl_cons]
    apply foldl_insert_congr xs
    intro a ha
    by_cases hx : a = key x
    · rw [hx, lookup_insert, lookup_insert]
    · rw [lookup_insert_of_ne _ hx, lookup_insert_of_ne _ hx]
      exact h a (by simp [List.map_cons, hx, ha])

theorem lookup_foldl_erase (a : α) :
    ∀ (l : List γ) (m : Finmap fun _ : α => β),
      (l.foldl (fun m x => m.erase (key x)) m).lookup a = if a ∈ l.map key then none else m.lookup a
  | [], _ => by simp
  | x :: xs, m => by
    simp only [List.foldl_cons, lookup_foldl_erase a xs, List.map_cons, List.mem_cons]
    by_cases hx : a = key x
    · subst hx
      simp [lookup_erase]
    · simp [hx, lookup_erase_ne hx]

end Finmap
