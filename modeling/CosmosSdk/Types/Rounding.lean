import CosmosSdk.Types.Decimal

/-!
# How the decimal operations round

The roundings the decimal operations stand for, stated on the exact rational result: the nearest
integer with ties to even (`roundHalfEven`), truncation (`Int.tdiv`), and the least integer above
(`roundUp`), each of a quotient `n / d` with `d > 0`.

* `chopPrecisionAndRound_eq_roundHalfEven`: dropping eighteen digits with banker's rounding is
  `roundHalfEven · 10¹⁸`, for negative values too, so `Mul` rounds its exact product.
* `tdiv_tdiv_precisionReuse`: two truncations compose into one, so `QuoTruncate` truncates the exact
  quotient `x·10¹⁸ / y`.
* `Quo` and `QuoRoundUp` first truncate `x·10³⁶ / y` and round that.  The part cut off below `10⁻³⁶`
  can decide a tie or a ceiling, and then the result differs from the rounding of the exact quotient
  (`quo_rounds_twice`).
-/

namespace CosmosSdk

/-- The integer nearest to `n / d` for `d > 0`, a tie going to the even neighbour. -/
def roundHalfEven (n d : Int) : Int :=
  if 2 * (n % d) < d then n / d
  else if d < 2 * (n % d) then n / d + 1
  else if n / d % 2 = 0 then n / d else n / d + 1

/-- The least integer at least `n / d`, for `d > 0`. -/
def roundUp (n d : Int) : Int := -((-n) / d)

/-- Banker's rounding of `chopPrecisionAndRound` is the rounding of the exact quotient by `10¹⁸` to
the nearest integer, ties to even: for a negative value, rounding the magnitude and negating back
gives the same integer. -/
theorem chopPrecisionAndRound_eq_roundHalfEven (x : Int) :
    chopPrecisionAndRound x = roundHalfEven x precisionReuse := by
  have hfive : fivePrecision = 500000000000000000 := rfl
  have hP : precisionReuse = 1000000000000000000 := rfl
  unfold chopPrecisionAndRound
  by_cases hneg : x < 0
  · obtain ⟨m, rfl⟩ : ∃ m : Nat, x = -(m : Int) := ⟨(-x).toNat, by omega⟩
    rw [if_pos hneg, neg_neg, Int.toNat_natCast, chopPrecisionAndRoundNonneg_eq]
    simp only [roundHalfEven, hfive, hP]
    push_cast
    split_ifs <;> omega
  · obtain ⟨m, rfl⟩ := Int.eq_ofNat_of_zero_le (not_lt.1 hneg)
    rw [if_neg hneg, Int.toNat_natCast, chopPrecisionAndRoundNonneg_eq]
    simp only [roundHalfEven, hfive, hP]
    push_cast
    split_ifs <;> omega

/-- Truncating `x·10³⁶ / y` and then eighteen digits truncates `x·10¹⁸ / y`. -/
theorem tdiv_tdiv_precisionReuse (x y : Int) :
    ((x * precisionReuse * precisionReuse).tdiv y).tdiv precisionReuse =
      (x * precisionReuse).tdiv y := by
  have hP : (0 : Int) < precisionReuse := by unfold precisionReuse; positivity
  -- the identity for nonnegative operands, where `tdiv` is floor division
  have key : ∀ a b : Int, 0 ≤ a → 0 ≤ b →
      ((a * precisionReuse * precisionReuse).tdiv b).tdiv precisionReuse =
        (a * precisionReuse).tdiv b := by
    intro a b ha hb
    have hnum : 0 ≤ a * precisionReuse * precisionReuse := by positivity
    rw [Int.tdiv_eq_ediv_of_nonneg hnum, Int.tdiv_eq_ediv_of_nonneg (Int.ediv_nonneg hnum hb),
      Int.tdiv_eq_ediv_of_nonneg (by positivity), Int.ediv_ediv_of_nonneg hb,
      Int.mul_ediv_mul_of_pos_left _ _ hP]
  rcases le_total 0 x with hx | hx <;> rcases le_total 0 y with hy | hy
  · exact key x y hx hy
  · simpa [Int.tdiv_neg] using congrArg Neg.neg (key x (-y) hx (by omega))
  · simpa [Int.neg_tdiv] using congrArg Neg.neg (key (-x) y (by omega) hy)
  · simpa [Int.neg_tdiv, Int.tdiv_neg] using key (-x) (-y) (by omega) (by omega)

namespace Dec

/-- `Mul` and `QuoTruncate` round the exact result: `Mul` the product `x·y / 10¹⁸` to the nearest,
ties to even, and `QuoTruncate` the quotient `x·10¹⁸ / y` toward zero; each panics only when that
result overflows. -/
theorem mul_quoTruncate_exact (d d2 : Dec) :
    d.mul d2 = checked (roundHalfEven (d.raw * d2.raw) precisionReuse) ∧
      (d2.raw ≠ 0 → d.quoTruncate d2 = checked ((d.raw * precisionReuse).tdiv d2.raw)) := by
  refine ⟨by rw [mul, chopPrecisionAndRound_eq_roundHalfEven], fun hd2 => ?_⟩
  rw [quoTruncate, quoRaw, if_neg hd2]
  show checked (chopPrecisionAndTruncate _) = _
  rw [chopPrecisionAndTruncate, tdiv_tdiv_precisionReuse]

theorem mul_quoTruncate_exact_third :
    (⟨3⟩ : Dec).raw ≠ 0 ∧
      (⟨1⟩ : Dec).quoTruncate ⟨3⟩ = checked (((⟨1⟩ : Dec).raw * precisionReuse).tdiv (⟨3⟩ : Dec).raw) :=
  ⟨by decide, (mul_quoTruncate_exact ⟨1⟩ ⟨3⟩).2 (by decide)⟩

/-- `Quo` and `QuoRoundUp` round twice.  `1·10⁻¹⁸ / (2 − 10⁻¹⁸)` is just above `10⁻¹⁸ / 2`, so it
rounds to `10⁻¹⁸`; its truncation at `10⁻³⁶` is exactly the tie `0.5·10⁻¹⁸`, which banker's rounding
takes down to `0`.  And `1·10⁻¹⁸ / (10¹⁸ + 10⁻¹⁸)` is positive, so its least `18`-decimal bound is
`10⁻¹⁸`; its truncation at `10⁻³⁶` is `0`, which `QuoRoundUp` keeps. -/
theorem quo_rounds_twice :
    Dec.quo ⟨1⟩ ⟨2 * 10 ^ 18 - 1⟩ = .ok ⟨0⟩ ∧
      roundHalfEven (1 * precisionReuse) (2 * 10 ^ 18 - 1) = 1 ∧
    Dec.quoRoundUp ⟨1⟩ ⟨10 ^ 36 + 1⟩ = .ok ⟨0⟩ ∧
      roundUp (1 * precisionReuse) (10 ^ 36 + 1) = 1 :=
  ⟨rfl, by decide, rfl, by decide⟩

end Dec

end CosmosSdk
