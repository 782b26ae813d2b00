import CosmosSdk.Types.Handler
import Mathlib.Data.Nat.Size
import Mathlib.Tactic.Positivity
import Mathlib.Tactic.Ring

/-!
# Arbitrary-precision integers and decimals

`sdk.Int` (`types/int.go`) and `sdk.Dec` (`types/decimal.go`).  An `sdk.Int` is a `big.Int` of at most
255 bits; the model keeps the integer (`Int`) and its operations under `SdkInt`.  An `sdk.Dec` is a
`big.Int` counting units of `10⁻¹⁸` (`Dec.raw`).  Every operation that the code guards with a
`BitLen()` check returns `Except Panic`, the panic being the code's.

`big.Int.Quo` truncates toward zero (`Int.tdiv`).  `chopPrecisionAndRound` divides by `10¹⁸` with
banker's rounding, so `Quo` rounds twice: it truncates `x·10³⁶ / y` and then rounds off 18 digits.

The lemmas at the end say what each operation computes when it does not panic, and bound the rounding:
`TruncateInt` of a `Quo` of nonnegative values is at least the floor of the exact quotient
(`floor_le_truncateInt_quo`).
-/

namespace CosmosSdk

/-- `Precision`. -/
def precision : Nat := 18

/-- `DecimalPrecisionBits`. -/
def decimalPrecisionBits : Nat := 60

/-- `maxBitLen`. -/
def maxBitLen : Nat := 255

/-- `precisionReuse`, `10¹⁸`. -/
def precisionReuse : Nat := 10 ^ precision

/-- `fivePrecision`, `10¹⁸ / 2`. -/
def fivePrecision : Nat := precisionReuse / 2

/-- `big.Int.BitLen`: the length of `|x|` in bits. -/
def bitLen (x : Int) : Nat := x.natAbs.size

/-- The overflow guard `x.BitLen() > bits`, decided by a comparison with a power of two. -/
theorem bitLen_gt_iff (x : Int) (bits : Nat) : bitLen x > bits ↔ 2 ^ bits ≤ x.natAbs := by
  rw [bitLen, gt_iff_lt, ← not_le, Nat.size_le, not_lt]

instance (x : Int) (bits : Nat) : Decidable (bitLen x > bits) :=
  decidable_of_iff (1 <<< bits ≤ x.natAbs) (by rw [Nat.one_shiftLeft, bitLen_gt_iff])

/-- The panic `Int overflow`. -/
def intOverflow : Panic := .other "Int overflow"

/-! ### `sdk.Int` -/

namespace SdkInt

/-- `Int.Add`. -/
def add (i i2 : Int) : Except Panic Int :=
  if bitLen (i + i2) > maxBitLen then .error intOverflow else .ok (i + i2)

/-- `Int.Sub`. -/
def sub (i i2 : Int) : Except Panic Int :=
  if bitLen (i - i2) > maxBitLen then .error intOverflow else .ok (i - i2)

/-- `Int.Mul`: the code checks the operands' lengths first, then the product's. -/
def mul (i i2 : Int) : Except Panic Int :=
  if bitLen i + bitLen i2 - 1 > maxBitLen then .error intOverflow
  else if bitLen (i * i2) > maxBitLen then .error intOverflow
  else .ok (i * i2)

/-- `Int.Quo`, truncating toward zero. -/
def quo (i i2 : Int) : Except Panic Int :=
  if i2 = 0 then .error (.other "Division by zero") else .ok (i.tdiv i2)

/-- `NewIntFromBigInt`. -/
def newIntFromBigInt (i : Int) : Except Panic Int :=
  if bitLen i > maxBitLen then .error (.other "NewIntFromBigInt() out of bound") else .ok i

/-- `Int.Int64`. -/
def int64 (i : Int) : Except Panic Int :=
  if -2 ^ 63 ≤ i ∧ i < 2 ^ 63 then .ok i else .error (.other "Int64() out of bound")

end SdkInt

/-! ### `sdk.Dec` -/

/-- `sdk.Dec`: a count of `10⁻¹⁸`. -/
structure Dec where
  raw : Int
  deriving DecidableEq

namespace Dec

/-- `ZeroDec`. -/
def zero : Dec := ⟨0⟩

/-- `OneDec`. -/
def one : Dec := ⟨precisionReuse⟩

/-- `precisionMultiplier(prec)`, `10^(18 - prec)`. -/
def precisionMultiplier (prec : Nat) : Int := 10 ^ (precision - prec)

/-- `NewDecFromIntWithPrec`. -/
def newDecFromIntWithPrec (i : Int) (prec : Nat) : Dec := ⟨i * precisionMultiplier prec⟩

/-- `NewDecFromInt`, also `Int.ToDec`. -/
def newDecFromInt (i : Int) : Dec := newDecFromIntWithPrec i 0

/-- `NewDecWithPrec`. -/
def newDecWithPrec (i : Int) (prec : Nat) : Dec := ⟨i * precisionMultiplier prec⟩

def isZero (d : Dec) : Bool := d.raw == 0
def isNegative (d : Dec) : Bool := d.raw < 0
def isPositive (d : Dec) : Bool := 0 < d.raw
def lt (d d2 : Dec) : Bool := d.raw < d2.raw
def lte (d d2 : Dec) : Bool := d.raw ≤ d2.raw
def gt (d d2 : Dec) : Bool := d2.raw < d.raw
def gte (d d2 : Dec) : Bool := d2.raw ≤ d.raw

/-- The guard of every `Dec` operation. -/
def checked (res : Int) : Except Panic Dec :=
  if bitLen res > maxBitLen + decimalPrecisionBits then .error intOverflow else .ok ⟨res⟩

/-- `Dec.Add`. -/
def add (d d2 : Dec) : Except Panic Dec := checked (d.raw + d2.raw)

/-- `Dec.Sub`. -/
def sub (d d2 : Dec) : Except Panic Dec := checked (d.raw - d2.raw)

/-- `Dec.Neg`: no overflow guard. -/
def neg (d : Dec) : Dec := ⟨-d.raw⟩

/-- `MinDec`. -/
def minDec (d1 d2 : Dec) : Dec := if d1.lt d2 then d1 else d2

end Dec

/-- `chopPrecisionAndRound` on a nonnegative value: divide by `10¹⁸`, rounding half to even. -/
def chopPrecisionAndRoundNonneg (d : Nat) : Nat :=
  let quo := d / precisionReuse
  let rem := d % precisionReuse
  if rem = 0 then quo
  else
    match compare rem fivePrecision with
    | .lt => quo
    | .gt => quo + 1
    -- banker's rounding: round to the even neighbour
    | .eq => if quo % 2 = 0 then quo else quo + 1

/-- `chopPrecisionAndRound`: a negative value is negated, rounded and negated back. -/
def chopPrecisionAndRound (d : Int) : Int :=
  if d < 0 then -(chopPrecisionAndRoundNonneg (-d).toNat : Int)
  else (chopPrecisionAndRoundNonneg d.toNat : Int)

/-- `chopPrecisionAndTruncate`: divide by `10¹⁸`, toward zero. -/
def chopPrecisionAndTruncate (d : Int) : Int := d.tdiv precisionReuse

/-- `chopPrecisionAndRoundUp`: up for a nonnegative value, toward zero for a negative one. -/
def chopPrecisionAndRoundUp (d : Int) : Int :=
  if d < 0 then -chopPrecisionAndTruncate (-d)
  else if d % precisionReuse = 0 then d / precisionReuse else d / precisionReuse + 1

namespace Dec

/-- `Dec.Mul`. -/
def mul (d d2 : Dec) : Except Panic Dec := checked (chopPrecisionAndRound (d.raw * d2.raw))

/-- `Dec.MulTruncate`. -/
def mulTruncate (d d2 : Dec) : Except Panic Dec :=
  checked (chopPrecisionAndTruncate (d.raw * d2.raw))

/-- `Dec.MulInt`. -/
def mulInt (d : Dec) (i : Int) : Except Panic Dec := checked (d.raw * i)

/-- The quotient `Quo`, `QuoTruncate` and `QuoRoundUp` start from: `d·10³⁶ / d2`, truncated; dividing
by zero panics. -/
def quoRaw (d d2 : Dec) : Except Panic Int :=
  if d2.raw = 0 then .error (.other "division by zero")
  else .ok ((d.raw * precisionReuse * precisionReuse).tdiv d2.raw)

/-- `Dec.Quo`. -/
def quo (d d2 : Dec) : Except Panic Dec := do
  let q ← quoRaw d d2
  checked (chopPrecisionAndRound q)

/-- `Dec.QuoTruncate`. -/
def quoTruncate (d d2 : Dec) : Except Panic Dec := do
  let q ← quoRaw d d2
  checked (chopPrecisionAndTruncate q)

/-- `Dec.QuoRoundUp`. -/
def quoRoundUp (d d2 : Dec) : Except Panic Dec := do
  let q ← quoRaw d d2
  checked (chopPrecisionAndRoundUp q)

/-- `Dec.QuoInt`: no overflow guard. -/
def quoInt (d : Dec) (i : Int) : Except Panic Dec :=
  if i = 0 then .error (.other "division by zero") else .ok ⟨d.raw.tdiv i⟩

/-- `Dec.TruncateInt`. -/
def truncateInt (d : Dec) : Except Panic Int :=
  SdkInt.newIntFromBigInt (chopPrecisionAndTruncate d.raw)

/-- `Dec.String`: the digits of `|d|` with a point before the last eighteen, zero-padded, and a sign. -/
def toString (d : Dec) : String :=
  let digits := (Nat.repr d.raw.natAbs).toList
  let body := if digits.length ≤ precision then
      "0." ++ String.ofList (List.replicate (precision - digits.length) '0' ++ digits)
    else
      String.ofList (digits.take (digits.length - precision) ++ '.' :: digits.drop (digits.length - precision))
  if d.raw < 0 then "-" ++ body else body

/-- `Dec.RoundInt`. -/
def roundInt (d : Dec) : Except Panic Int :=
  SdkInt.newIntFromBigInt (chopPrecisionAndRound d.raw)

/-- `Dec.RoundInt64`. -/
def roundInt64 (d : Dec) : Except Panic Int := SdkInt.int64 (chopPrecisionAndRound d.raw)

end Dec

/-! ### What the operations compute when they do not panic -/

namespace SdkInt

theorem add_eq_ok {i i2 r : Int} (h : add i i2 = .ok r) : r = i + i2 := by
  unfold add at h
  split at h <;> simp_all

/-- `Int.Add` does not panic when the sum fits in 255 bits. -/
theorem add_of_natAbs_lt {i i2 : Int} (h : (i + i2).natAbs < 2 ^ maxBitLen) :
    add i i2 = .ok (i + i2) := by
  rw [add, if_neg (by rw [bitLen_gt_iff]; omega)]

/-- `Int.Sub` does not panic when the difference fits in 255 bits. -/
theorem sub_of_natAbs_lt {i i2 : Int} (h : (i - i2).natAbs < 2 ^ maxBitLen) :
    sub i i2 = .ok (i - i2) := by
  rw [sub, if_neg (by rw [bitLen_gt_iff]; omega)]

theorem sub_eq_ok {i i2 r : Int} (h : sub i i2 = .ok r) : r = i - i2 := by
  unfold sub at h
  split at h <;> simp_all

theorem mul_eq_ok {i i2 r : Int} (h : mul i i2 = .ok r) : r = i * i2 := by
  unfold mul at h
  split at h
  · simp at h
  · split at h <;> simp_all

theorem int64_eq_ok {i r : Int} (h : int64 i = .ok r) : r = i := by
  unfold int64 at h
  split at h <;> simp_all

theorem newIntFromBigInt_of_natAbs_lt {i : Int} (h : i.natAbs < 2 ^ maxBitLen) :
    newIntFromBigInt i = .ok i := by
  rw [newIntFromBigInt, if_neg (by rw [bitLen_gt_iff]; omega)]

theorem newIntFromBigInt_eq_ok {i r : Int} (h : newIntFromBigInt i = .ok r) : r = i := by
  unfold newIntFromBigInt at h
  split at h <;> simp_all

end SdkInt

namespace Dec

@[simp] theorem lt_eq_true {d d2 : Dec} : d.lt d2 = true ↔ d.raw < d2.raw := decide_eq_true_iff

@[simp] theorem gt_eq_true {d d2 : Dec} : d.gt d2 = true ↔ d2.raw < d.raw := decide_eq_true_iff

theorem checked_eq_ok {r : Int} {d : Dec} (h : checked r = .ok d) : d.raw = r := by
  unfold checked at h
  split at h
  · simp at h
  · simp only [Except.ok.injEq] at h
    rw [← h]

/-- The guard passes a value that fits in `255 + 60` bits. -/
theorem checked_of_natAbs_lt {r : Int} (h : r.natAbs < 2 ^ (maxBitLen + decimalPrecisionBits)) :
    checked r = .ok ⟨r⟩ := by
  rw [checked, if_neg (by rw [bitLen_gt_iff]; omega)]

theorem add_eq_ok {d d2 d3 : Dec} (h : d.add d2 = .ok d3) : d3.raw = d.raw + d2.raw :=
  checked_eq_ok h

theorem add_of_natAbs_lt {d d2 : Dec}
    (h : (d.raw + d2.raw).natAbs < 2 ^ (maxBitLen + decimalPrecisionBits)) :
    d.add d2 = .ok ⟨d.raw + d2.raw⟩ :=
  checked_of_natAbs_lt h

theorem sub_eq_ok {d d2 d3 : Dec} (h : d.sub d2 = .ok d3) : d3.raw = d.raw - d2.raw :=
  checked_eq_ok h

theorem mul_eq_ok {d d2 d3 : Dec} (h : d.mul d2 = .ok d3) :
    d3.raw = chopPrecisionAndRound (d.raw * d2.raw) :=
  checked_eq_ok h

theorem mulInt_eq_ok {d d3 : Dec} {i : Int} (h : d.mulInt i = .ok d3) : d3.raw = d.raw * i :=
  checked_eq_ok h

theorem quoInt_eq_ok {d d3 : Dec} {i : Int} (h : d.quoInt i = .ok d3) :
    i ≠ 0 ∧ d3.raw = d.raw.tdiv i := by
  unfold quoInt at h
  split at h
  · simp at h
  · simp only [Except.ok.injEq] at h
    rw [← h]
    exact ⟨‹_›, rfl⟩

theorem quo_eq_ok {d d2 d3 : Dec} (h : d.quo d2 = .ok d3) :
    d2.raw ≠ 0 ∧
      d3.raw = chopPrecisionAndRound ((d.raw * precisionReuse * precisionReuse).tdiv d2.raw) := by
  unfold quo quoRaw at h
  split at h
  · simp [bind, Except.bind] at h
  · exact ⟨‹_›, checked_eq_ok h⟩

theorem truncateInt_eq_ok {d : Dec} {r : Int} (h : d.truncateInt = .ok r) :
    r = d.raw.tdiv precisionReuse :=
  SdkInt.newIntFromBigInt_eq_ok h

end Dec

/-! ### Rounding bounds -/

theorem chopPrecisionAndRoundNonneg_ge (d : Nat) :
    d / precisionReuse ≤ chopPrecisionAndRoundNonneg d := by
  unfold chopPrecisionAndRoundNonneg
  dsimp only
  split
  · exact le_refl _
  · split
    · exact le_refl _
    · exact Nat.le_succ _
    · split <;> omega

/-- Banker's rounding as the quotient and the bit it adds: one past the half, and one at the half when
the quotient is odd. -/
theorem chopPrecisionAndRoundNonneg_eq (d : Nat) :
    chopPrecisionAndRoundNonneg d = d / precisionReuse +
      if fivePrecision < d % precisionReuse ∨
        (d % precisionReuse = fivePrecision ∧ d / precisionReuse % 2 = 1) then 1 else 0 := by
  have hfive : fivePrecision = 500000000000000000 := rfl
  unfold chopPrecisionAndRoundNonneg
  dsimp only
  by_cases h0 : d % precisionReuse = 0
  · have hbelow : ¬(fivePrecision < d % precisionReuse ∨
        (d % precisionReuse = fivePrecision ∧ d / precisionReuse % 2 = 1)) := by omega
    rw [if_pos h0, if_neg hbelow, Nat.add_zero]
  · rw [if_neg h0]
    cases hc : compare (d % precisionReuse) fivePrecision with
    | lt =>
      rw [Nat.compare_eq_lt] at hc
      have hbelow : ¬(fivePrecision < d % precisionReuse ∨
          (d % precisionReuse = fivePrecision ∧ d / precisionReuse % 2 = 1)) := by omega
      rw [if_neg hbelow]
      rfl
    | gt =>
      rw [Nat.compare_eq_gt] at hc
      rw [if_pos (Or.inl hc)]
    | eq =>
      rw [Nat.compare_eq_eq] at hc
      dsimp only
      split_ifs <;> omega

/-- Rounding to nearest, ties to even, never turns a larger value into a smaller one. -/
theorem chopPrecisionAndRoundNonneg_mono {a b : Nat} (h : a ≤ b) :
    chopPrecisionAndRoundNonneg a ≤ chopPrecisionAndRoundNonneg b := by
  have hfive : fivePrecision = 500000000000000000 := rfl
  have hP : precisionReuse = 1000000000000000000 := rfl
  rw [chopPrecisionAndRoundNonneg_eq, chopPrecisionAndRoundNonneg_eq, hfive, hP]
  split_ifs <;> omega

theorem chopPrecisionAndRoundNonneg_mul (n : Nat) :
    chopPrecisionAndRoundNonneg (n * precisionReuse) = n := by
  have hfive : fivePrecision = 500000000000000000 := rfl
  have hP : precisionReuse = 1000000000000000000 := rfl
  rw [chopPrecisionAndRoundNonneg_eq, hfive, hP]
  split_ifs <;> omega

theorem chopPrecisionAndRound_mono {x y : Int} (hx : 0 ≤ x) (h : x ≤ y) :
    chopPrecisionAndRound x ≤ chopPrecisionAndRound y := by
  unfold chopPrecisionAndRound
  rw [if_neg (not_lt.2 hx), if_neg (not_lt.2 (hx.trans h))]
  exact Int.ofNat_le.2 (chopPrecisionAndRoundNonneg_mono (Int.toNat_le_toNat h))

/-- A whole number of units of `10⁻¹⁸` rounds to itself. -/
theorem chopPrecisionAndRound_mul {n : Int} (hn : 0 ≤ n) :
    chopPrecisionAndRound (n * precisionReuse) = n := by
  obtain ⟨m, rfl⟩ := Int.eq_ofNat_of_zero_le hn
  unfold chopPrecisionAndRound
  rw [if_neg (not_lt.2 (by positivity)), ← Nat.cast_mul, Int.toNat_natCast,
    chopPrecisionAndRoundNonneg_mul]

theorem chopPrecisionAndRound_nonneg {x : Int} (hx : 0 ≤ x) : 0 ≤ chopPrecisionAndRound x := by
  unfold chopPrecisionAndRound
  rw [if_neg (not_lt.2 hx)]
  exact Int.natCast_nonneg _

theorem chopPrecisionAndRound_ge {x : Int} (hx : 0 ≤ x) :
    x / precisionReuse ≤ chopPrecisionAndRound x := by
  unfold chopPrecisionAndRound
  rw [if_neg (not_lt.2 hx)]
  have h : ((x.toNat / precisionReuse : Nat) : Int) ≤ (chopPrecisionAndRoundNonneg x.toNat : Int) :=
    Int.ofNat_le.2 (chopPrecisionAndRoundNonneg_ge x.toNat)
  rwa [Int.natCast_div, Int.toNat_of_nonneg hx] at h

/-- `TruncateInt` of `Quo(s·T, S)` for nonnegative operands, the raw values here, is at least the floor
of `s·T / S`: rounding to nearest in between can only raise it. -/
theorem floor_le_truncateInt_quo {s T S : Int} (hs : 0 ≤ s) (hT : 0 ≤ T) (hS : 0 < S) :
    s * T / S ≤
      (chopPrecisionAndRound ((s * T * precisionReuse * precisionReuse).tdiv S)).tdiv precisionReuse := by
  have hP : (0 : Int) < precisionReuse := by unfold precisionReuse; positivity
  set q := (s * T * precisionReuse * precisionReuse).tdiv S
  have hnum : 0 ≤ s * T * precisionReuse * precisionReuse := by positivity
  have hq : q = s * T * precisionReuse * precisionReuse / S := Int.tdiv_eq_ediv_of_nonneg hnum
  have hq0 : 0 ≤ q := by rw [hq]; exact Int.ediv_nonneg hnum hS.le
  have hc := chopPrecisionAndRound_ge hq0
  rw [Int.tdiv_eq_ediv_of_nonneg (chopPrecisionAndRound_nonneg hq0)]
  calc s * T / S = q / precisionReuse / precisionReuse := by
        rw [hq, Int.ediv_ediv_of_nonneg hS.le, Int.ediv_ediv_of_nonneg (by positivity),
          show s * T * precisionReuse * precisionReuse = s * T * (precisionReuse * precisionReuse) by ring,
          show S * precisionReuse * precisionReuse = S * (precisionReuse * precisionReuse) by ring,
          Int.mul_ediv_mul_of_pos_left _ _ (by positivity)]
    _ ≤ chopPrecisionAndRound q / precisionReuse := Int.ediv_le_ediv hP hc

end CosmosSdk
