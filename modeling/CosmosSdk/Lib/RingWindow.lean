import Mathlib.Algebra.BigOperators.Group.Finset.Piecewise
import Mathlib.Data.List.Count
import Mathlib.Data.Nat.ModEq
import Mathlib.Data.List.DropRight

/-!
# A ring of slots holding the last values of a stream

A ring of `W` slots takes a stream of values, the `n`-th one into slot `n % W`.  After the stream `h`,
slot `i` holds `ringOf W h i`: the last value whose position is `i` modulo `W`, and `none` if there
is none yet (`ringOf_eq`).  Writing one more value changes one slot (`ringOf_append_singleton`), the
one that held the value `W` places back (`ringOf_length_mod`).  So the slots hold exactly the last
`W` values, and the number of slots that hold `true` (`trueCount`) counts the `true`s among them
(`trueCount_ringOf`).
-/

namespace RingWindow

variable {α : Type*}

/-- The writes of `xs`, the first at position `n`, over the slots `slots`. -/
def writeFrom (W : Nat) : Nat → List α → (Nat → Option α) → Nat → Option α
  | _, [], slots => slots
  | n, x :: xs, slots => writeFrom W (n + 1) xs (Function.update slots (n % W) (some x))

/-- The slots of a ring of `W` slots after the stream `h`. -/
def ringOf (W : Nat) (h : List α) : Nat → Option α := writeFrom W 0 h fun _ => none

theorem writeFrom_append (W : Nat) :
    ∀ (n : Nat) (xs ys : List α) (slots : Nat → Option α),
      writeFrom W n (xs ++ ys) slots = writeFrom W (n + xs.length) ys (writeFrom W n xs slots)
  | _, [], _, _ => rfl
  | n, x :: xs, ys, slots => by
    rw [List.cons_append, writeFrom, writeFrom, writeFrom_append W (n + 1) xs ys,
      List.length_cons, Nat.add_assoc, Nat.add_comm 1]

theorem ringOf_nil (W : Nat) : ringOf W ([] : List α) = fun _ => none := rfl

theorem ringOf_append_singleton (W : Nat) (h : List α) (x : α) :
    ringOf W (h ++ [x]) = Function.update (ringOf W h) (h.length % W) (some x) := by
  rw [ringOf, writeFrom_append, Nat.zero_add]
  rfl

/-- Past the value at `n`, the last position of a slot other than `n`'s own stays where it was. -/
private theorem lastPos_succ {W n i : Nat} (hi : i < W) (hin : i < n) (hslot : n % W ≠ i) :
    (n + 1 - 1 - i) / W = (n - 1 - i) / W := by
  have hnd : ¬ W ∣ n - 1 - i + 1 := by
    rw [show n - 1 - i + 1 = n - i by omega, ← Nat.modEq_iff_dvd' hin.le]
    intro hmod
    exact hslot (by rw [← hmod, Nat.mod_eq_of_lt hi])
  rw [show n + 1 - 1 - i = n - 1 - i + 1 by omega, Nat.succ_div, if_neg hnd, Nat.add_zero]

/-- Slot `i` holds the value at the last position `i` modulo `W`. -/
theorem ringOf_eq {W : Nat} (hW : 0 < W) (h : List α) {i : Nat} (hi : i < W) :
    ringOf W h i = if i < h.length then h[i + W * ((h.length - 1 - i) / W)]? else none := by
  induction h using List.reverseRecOn with
  | nil => rfl
  | append_singleton h x ih =>
    rw [ringOf_append_singleton, List.length_append, List.length_singleton]
    by_cases hslot : h.length % W = i
    · -- the new value lands in slot `i`, at the last position `i` modulo `W`
      subst hslot
      have hpos : h.length % W + W * ((h.length + 1 - 1 - h.length % W) / W) = h.length := by
        have hsplit := Nat.mod_add_div h.length W
        rw [Nat.add_sub_cancel, show h.length - h.length % W = W * (h.length / W) by omega,
          Nat.mul_div_cancel_left _ hW]
        exact hsplit
      rw [Function.update_self, if_pos (Nat.lt_succ_of_le (Nat.mod_le _ _)), hpos,
        List.getElem?_concat_length]
    · rw [Function.update_of_ne (Ne.symm hslot), ih]
      by_cases hin : i < h.length
      · have hlt : i + W * ((h.length - 1 - i) / W) < h.length := by
          have := Nat.mul_div_le (h.length - 1 - i) W
          omega
        rw [if_pos hin, if_pos (Nat.lt_succ_of_lt hin), lastPos_succ hi hin hslot,
          List.getElem?_append_left hlt]
      · have hnot : ¬ i < h.length + 1 := by
          intro hlt
          have hi' : i = h.length := by omega
          exact hslot (by rw [← hi', Nat.mod_eq_of_lt hi])
        rw [if_neg hin, if_neg hnot]

/-- The slot the next value goes to holds the value `W` places back. -/
theorem ringOf_length_mod {W : Nat} (hW : 0 < W) (h : List α) :
    ringOf W h (h.length % W) = if W ≤ h.length then h[h.length - W]? else none := by
  rw [ringOf_eq hW h (Nat.mod_lt _ hW)]
  by_cases hle : W ≤ h.length
  · have hsplit := Nat.mod_add_div h.length W
    have hq : 0 < h.length / W := Nat.div_pos hle hW
    have hmul : W * (h.length / W - 1) = W * (h.length / W) - W := Nat.mul_sub_one _ _
    have hge : W ≤ W * (h.length / W) := Nat.le_mul_of_pos_right _ hq
    have hdiv : (h.length - 1 - h.length % W) / W = h.length / W - 1 := by
      rw [show h.length - 1 - h.length % W = W - 1 + W * (h.length / W - 1) by omega,
        Nat.add_mul_div_left _ _ hW, Nat.div_eq_of_lt (by omega), Nat.zero_add]
    rw [if_pos (by omega), if_pos hle, hdiv, show h.length % W + W * (h.length / W - 1) =
      h.length - W by omega]
  · have hmod : h.length % W = h.length := Nat.mod_eq_of_lt (not_le.1 hle)
    rw [if_neg (by omega), if_neg hle]

/-- The slots among the first `W` that hold `true`. -/
def trueCount (W : Nat) (slots : Nat → Option Bool) : Nat :=
  ((Finset.range W).filter fun i => slots i = some true).card

theorem trueCount_le (W : Nat) (slots : Nat → Option Bool) : trueCount W slots ≤ W :=
  (Finset.card_filter_le _ _).trans (Finset.card_range W).le

/-- Changing slot `k` moves the count by the values that leave and enter it. -/
theorem trueCount_update {W k : Nat} (hk : k < W) (f : Nat → Option Bool) (v : Option Bool) :
    trueCount W (Function.update f k v) + (if f k = some true then 1 else 0) =
      trueCount W f + (if v = some true then 1 else 0) := by
  have hmem : k ∈ Finset.range W := Finset.mem_range.2 hk
  have hrest : ∑ i ∈ (Finset.range W).erase k, (if Function.update f k v i = some true then 1 else 0) =
      ∑ i ∈ (Finset.range W).erase k, (if f i = some true then 1 else 0) :=
    Finset.sum_congr rfl fun i hi => by rw [Function.update_of_ne (Finset.ne_of_mem_erase hi)]
  rw [trueCount, trueCount, Finset.card_filter, Finset.card_filter, ← Finset.add_sum_erase _ _ hmem,
    ← Finset.add_sum_erase _ _ hmem, hrest, Function.update_self]
  omega

/-- One more value: the count gains the new value and loses the one `W` places back. -/
theorem trueCount_ringOf_append {W : Nat} (hW : 0 < W) (h : List Bool) (x : Bool) :
    trueCount W (ringOf W (h ++ [x])) + (if ringOf W h (h.length % W) = some true then 1 else 0) =
      trueCount W (ringOf W h) + (if x = true then 1 else 0) := by
  rw [ringOf_append_singleton, trueCount_update (Nat.mod_lt _ hW)]
  simp only [Option.some.injEq]

/-- The slots holding `true` count the `true`s among the last `W` values. -/
theorem trueCount_ringOf (W : Nat) (h : List Bool) :
    trueCount W (ringOf W h) = (h.rtake W).count true := by
  rcases Nat.eq_zero_or_pos W with rfl | hW
  · simp [trueCount, List.rtake]
  induction h using List.reverseRecOn with
  | nil => simp [trueCount, ringOf_nil]
  | append_singleton h x ih =>
    have hstep := trueCount_ringOf_append hW h x
    rw [ringOf_length_mod hW, ih] at hstep
    unfold List.rtake at hstep ⊢
    rw [List.length_append, List.length_singleton]
    by_cases hle : W ≤ h.length
    · -- the value `W` places back leaves the window as `x` enters it
      have hdrop : h.drop (h.length - W) = h[h.length - W] :: h.drop (h.length + 1 - W) := by
        rw [List.drop_eq_getElem_cons (by omega)]
        congr 2
        omega
      rw [if_pos hle, List.getElem?_eq_getElem (by omega), hdrop] at hstep
      rw [List.drop_append_of_le_length (by omega), List.count_append]
      simp only [Option.some.injEq, List.count_cons] at hstep ⊢
      grind
    · rw [if_neg hle] at hstep
      rw [show h.length + 1 - W = 0 by omega, show h.length - W = 0 by omega] at *
      simp only [List.drop_zero, List.count_append, List.count_singleton] at hstep ⊢
      grind

end RingWindow
