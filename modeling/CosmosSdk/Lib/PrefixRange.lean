import Mathlib.Logic.Basic

/-!
# Prefix ranges in the lexicographic order

Under the lexicographic order of lists (`List.lt`, with `l₁ ≤ l₂` for `¬l₂ < l₁`) over a strict total
order, the lists that carry a prefix `p` form an interval.  It starts at `p` itself.  When every
element of `p` is a greatest one, it has no end (`le_iff_isPrefix_of_forall_top`); otherwise, writing
`p = q ++ a :: t` with every element of `t` greatest, it ends just before `q ++ [c]`, where `c` comes
right after `a` (`le_and_lt_iff_isPrefix`).  A range that begins and ends with the same prefix keeps
its order once the prefix is dropped (`append_lt_append_iff_left`, `append_le_append_iff_left`).

Only the order on elements is assumed, as the lemmas of `List.lt` assume it: `<` asymmetric and
trichotomous.
-/

namespace PrefixRange

variable {α : Type*} [LT α]

/-! ### Comparing lists head first -/

theorem not_cons_le_nil (a : α) (l : List α) : ¬a :: l ≤ [] :=
  fun h => h (List.nil_lt_cons a l)

section Asymm

variable [Std.Asymm (fun x y : α => x < y)]

theorem not_lt_self (a : α) : ¬a < a := fun h => Std.Asymm.asymm a a h h

/-- A list is at most every list it is a prefix of. -/
theorem le_of_isPrefix {p k : List α} (h : p <+: k) : p ≤ k := by
  obtain ⟨t, rfl⟩ := h
  induction p with
  | nil => exact List.nil_le t
  | cons a p ih =>
    rw [← List.not_lt] at ih ⊢
    rw [List.cons_append, List.cons_lt_cons_iff]
    rintro (h | ⟨-, h⟩)
    · exact not_lt_self a h
    · exact ih h

/-! ### A common prefix -/

theorem append_lt_append_iff_left (p : List α) {k e : List α} : p ++ k < p ++ e ↔ k < e := by
  induction p with
  | nil => exact Iff.rfl
  | cons a p ih =>
    rw [List.cons_append, List.cons_append, List.cons_lt_cons_iff, ih]
    exact ⟨fun h => h.elim (fun h => absurd h (not_lt_self a)) And.right,
      fun h => .inr ⟨rfl, h⟩⟩

theorem append_le_append_iff_left (p : List α) {k e : List α} : p ++ k ≤ p ++ e ↔ k ≤ e := by
  rw [← List.not_lt, ← List.not_lt, append_lt_append_iff_left]

/-! ### The interval of a prefix -/

variable [Std.Trichotomous (fun x y : α => x < y)]

/-- A prefix made of greatest elements only: the lists above it are exactly those that carry it. -/
theorem le_iff_isPrefix_of_forall_top {p k : List α} (htop : ∀ x ∈ p, ∀ y, ¬x < y) :
    p ≤ k ↔ p <+: k := by
  induction p generalizing k with
  | nil => exact ⟨fun _ => List.nil_prefix, fun _ => List.nil_le k⟩
  | cons x p ih =>
    cases k with
    | nil => exact ⟨fun h => absurd h (not_cons_le_nil x p), fun h => absurd h (by simp)⟩
    | cons y k =>
      -- `x` is greatest, so the heads cannot differ in favour of `k`
      rw [List.cons_le_cons_iff, List.cons_prefix_cons,
        ih fun z hz => htop z (List.mem_cons_of_mem _ hz)]
      simp [htop x List.mem_cons_self y]

/-- The lists at least `q ++ a :: t`, where every element of `t` is greatest, and below `q ++ [c]`,
where `c` comes right after `a`: exactly those that carry `q ++ a :: t`. -/
theorem le_and_lt_iff_isPrefix {q t k : List α} {a c : α} (hac : a < c)
    (hsucc : ∀ y, a < y → ¬y < c) (htop : ∀ x ∈ t, ∀ y, ¬x < y) :
    q ++ a :: t ≤ k ∧ k < q ++ [c] ↔ q ++ a :: t <+: k := by
  induction q generalizing k with
  | nil =>
    cases k with
    | nil => exact ⟨fun h => absurd h.1 (not_cons_le_nil a t), fun h => absurd h (by simp)⟩
    | cons y k =>
      simp only [List.nil_append]
      rw [List.cons_le_cons_iff, List.cons_lt_cons_iff, List.cons_prefix_cons,
        ← le_iff_isPrefix_of_forall_top htop]
      constructor
      · rintro ⟨hay | ⟨rfl, hk⟩, hyc | ⟨rfl, hnil⟩⟩
        · exact absurd hyc (hsucc y hay)
        · exact absurd hnil (List.not_lt_nil k)
        · exact ⟨rfl, hk⟩
        · exact absurd hnil (List.not_lt_nil k)
      · rintro ⟨rfl, hk⟩
        exact ⟨.inr ⟨rfl, hk⟩, .inl hac⟩
  | cons x q ih =>
    cases k with
    | nil => exact ⟨fun h => absurd h.1 (not_cons_le_nil x _), fun h => absurd h (by simp)⟩
    | cons y k =>
      simp only [List.cons_append]
      rw [List.cons_le_cons_iff, List.cons_lt_cons_iff, List.cons_prefix_cons, ← ih]
      constructor
      · rintro ⟨hxy | ⟨rfl, hk⟩, hyx | ⟨hyx, hk'⟩⟩
        · exact absurd hyx (Std.Asymm.asymm x y hxy)
        · rw [hyx] at hxy
          exact absurd hxy (not_lt_self x)
        · exact absurd hyx (not_lt_self x)
        · exact ⟨rfl, hk, hk'⟩
      · rintro ⟨rfl, hk, hk'⟩
        exact ⟨.inr ⟨rfl, hk⟩, .inr ⟨rfl, hk'⟩⟩

end Asymm

end PrefixRange
