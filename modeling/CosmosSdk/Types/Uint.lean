import CosmosSdk.Types.Decimal
import CosmosSdk.Lib.GoText

/-!
# Unsigned 256-bit integers

`sdk.Uint` (`types/uint.go`): a `big.Int` that the constructors keep in `[0, 2^256)`.  Arithmetic
goes through `NewUintFromBigInt`, which panics outside that range (`newUintFromBigInt_eq_ok_iff`), and
`Quo` panics on a zero divisor as `big.Int.Quo` does.  The comparisons are built on each other:
`GTE` is `GT || Equal` and `LTE` is `!GTE`, which is the strict order (`lte_iff`).

The codecs are those of `sdk.Int`: `MarshalAmino` prints the decimal text, `UnmarshalAmino` reads it
back with `UnmarshalText` (base 0) and a 255-bit bound and no sign check.  So a text read back lies in
`(-2^255, 2^255)`: a `Uint` below `2^255` round-trips (`unmarshalAmino_marshalAmino`), one at or above
it does not, and a negative text is read as a negative `Uint` (`uint_lte_and_codecs`).
-/

namespace CosmosSdk

open GoBig

/-- `sdk.Uint`: its `big.Int`. -/
structure Uint where
  i : Int
  deriving DecidableEq

/-- `UintOverflow`: the error for a value outside `[0, 2^256)`. -/
def uintOverflow (i : Int) : Option String :=
  if i < 0 then some "non-positive integer"
  else if bitLen i > 256 then some ("bit length " ++ toString (bitLen i) ++ " greater than 256")
  else none

/-- `checkNewUint`. -/
def checkNewUint (i : Int) : Except String Uint :=
  match uintOverflow i with
  | some err => .error err
  | none => .ok ⟨i⟩

/-- `NewUintFromBigInt`: panics with `overflow: ` and the error of `checkNewUint`. -/
def newUintFromBigInt (i : Int) : Except Panic Uint :=
  match checkNewUint i with
  | .error err => .error (.other ("overflow: " ++ err))
  | .ok u => .ok u

/-- The runtime panic of `big.Int.Quo` by zero. -/
def divisionByZero : Panic := .other "division by zero"

/-- `UnmarshalText` into a `big.Int`, then the bound of `unmarshalText` (`types/int.go`). -/
def unmarshalText (text : String) : Except String Int :=
  match setString text 0 with
  | none => .error ("math/big: cannot unmarshal \"" ++ text ++ "\" into a *big.Int")
  | some i => if bitLen i > maxBitLen then .error ("integer out of range: " ++ text) else .ok i

namespace Uint

/-- `Uint.Equal`. -/
def equal (u u2 : Uint) : Bool := u.i == u2.i

/-- `Uint.GT`. -/
def gt (u u2 : Uint) : Bool := decide (u2.i < u.i)

/-- `Uint.GTE`: `GT` or `Equal`. -/
def gte (u u2 : Uint) : Bool := u.gt u2 || u.equal u2

/-- `Uint.LT`. -/
def lt (u u2 : Uint) : Bool := decide (u.i < u2.i)

/-- `Uint.LTE`: not `GTE`. -/
def lte (u u2 : Uint) : Bool := !u.gte u2

/-- `Uint.Add`. -/
def add (u u2 : Uint) : Except Panic Uint := newUintFromBigInt (u.i + u2.i)

/-- `Uint.Sub`. -/
def sub (u u2 : Uint) : Except Panic Uint := newUintFromBigInt (u.i - u2.i)

/-- `Uint.Mul`. -/
def mul (u u2 : Uint) : Except Panic Uint := newUintFromBigInt (u.i * u2.i)

/-- `Uint.Quo`: `big.Int.Quo` truncates toward zero and panics on a zero divisor. -/
def quo (u u2 : Uint) : Except Panic Uint :=
  if u2.i = 0 then .error divisionByZero else newUintFromBigInt (u.i.tdiv u2.i)

/-- `Uint.MarshalAmino`: the decimal text of the `big.Int`. -/
def marshalAmino (u : Uint) : String := toString u.i

/-- `Uint.UnmarshalAmino`. -/
def unmarshalAmino (text : String) : Except String Uint := (unmarshalText text).map Uint.mk

end Uint

/-! ### Range and arithmetic -/

theorem uintOverflow_eq_none_iff (i : Int) : uintOverflow i = none ↔ 0 ≤ i ∧ i < 2 ^ 256 := by
  unfold uintOverflow
  by_cases hneg : i < 0
  · rw [if_pos hneg]
    simp only [reduceCtorEq, false_iff, not_and]
    omega
  · rw [if_neg hneg]
    by_cases hbig : bitLen i > 256
    · rw [if_pos hbig]
      rw [bitLen_gt_iff] at hbig
      simp only [reduceCtorEq, false_iff, not_and, not_lt]
      intro _
      omega
    · rw [if_neg hbig]
      rw [bitLen_gt_iff, not_le] at hbig
      simp only [true_iff]
      omega

/-- `NewUintFromBigInt` returns exactly the values of `[0, 2^256)`, and panics on every other. -/
theorem newUintFromBigInt_eq_ok_iff {i : Int} {u : Uint} :
    newUintFromBigInt i = .ok u ↔ 0 ≤ i ∧ i < 2 ^ 256 ∧ u = ⟨i⟩ := by
  unfold newUintFromBigInt checkNewUint
  cases hover : uintOverflow i with
  | some err =>
    have hout : ¬(0 ≤ i ∧ i < 2 ^ 256) := fun h => by
      rw [(uintOverflow_eq_none_iff i).2 h] at hover
      cases hover
    simp only [reduceCtorEq, false_iff, not_and]
    exact fun h0 h1 => absurd ⟨h0, h1⟩ hout
  | none =>
    have hin := (uintOverflow_eq_none_iff i).1 hover
    simp only [Except.ok.injEq]
    exact ⟨fun h => ⟨hin.1, hin.2, h.symm⟩, fun h => h.2.2.symm⟩

namespace Uint

theorem add_eq_ok_iff {u u2 r : Uint} :
    u.add u2 = .ok r ↔ 0 ≤ u.i + u2.i ∧ u.i + u2.i < 2 ^ 256 ∧ r = ⟨u.i + u2.i⟩ :=
  newUintFromBigInt_eq_ok_iff

theorem sub_eq_ok_iff {u u2 r : Uint} :
    u.sub u2 = .ok r ↔ 0 ≤ u.i - u2.i ∧ u.i - u2.i < 2 ^ 256 ∧ r = ⟨u.i - u2.i⟩ :=
  newUintFromBigInt_eq_ok_iff

theorem mul_eq_ok_iff {u u2 r : Uint} :
    u.mul u2 = .ok r ↔ 0 ≤ u.i * u2.i ∧ u.i * u2.i < 2 ^ 256 ∧ r = ⟨u.i * u2.i⟩ :=
  newUintFromBigInt_eq_ok_iff

theorem quo_eq_ok_iff {u u2 r : Uint} :
    u.quo u2 = .ok r ↔ u2.i ≠ 0 ∧ 0 ≤ u.i.tdiv u2.i ∧ u.i.tdiv u2.i < 2 ^ 256 ∧ r = ⟨u.i.tdiv u2.i⟩ := by
  unfold quo
  by_cases hzero : u2.i = 0
  · rw [if_pos hzero]
    simp [divisionByZero, hzero]
  · rw [if_neg hzero, newUintFromBigInt_eq_ok_iff]
    simp [hzero]

/-! ### Comparisons -/

theorem equal_iff {u u2 : Uint} : u.equal u2 = true ↔ u.i = u2.i := by simp [equal]

theorem gt_iff {u u2 : Uint} : u.gt u2 = true ↔ u2.i < u.i := by simp [gt]

theorem lt_iff {u u2 : Uint} : u.lt u2 = true ↔ u.i < u2.i := by simp [lt]

theorem gte_iff {u u2 : Uint} : u.gte u2 = true ↔ u2.i ≤ u.i := by
  rw [gte, Bool.or_eq_true, gt_iff, equal_iff]
  omega

/-- `LTE` is the negation of `GTE`: the strict order. -/
theorem lte_iff {u u2 : Uint} : u.lte u2 = true ↔ u.i < u2.i := by
  rw [lte, Bool.not_eq_true', ← Bool.not_eq_true, gte_iff]
  omega

/-! ### Codecs -/

/-- What the decoder accepts lies in `(-2^255, 2^255)`. -/
theorem natAbs_lt_of_unmarshalAmino {text : String} {u : Uint} (h : unmarshalAmino text = .ok u) :
    u.i.natAbs < 2 ^ maxBitLen := by
  unfold unmarshalAmino unmarshalText at h
  split at h
  · cases h
  · split at h
    · cases h
    · rename_i hbig
      cases h
      rw [bitLen_gt_iff, not_le] at hbig
      exact hbig

/-- A value below `2^255` in absolute value reads back from its text. -/
theorem unmarshalText_toString {i : Int} (h : i.natAbs < 2 ^ maxBitLen) :
    unmarshalText (toString i) = .ok i := by
  have hbits : ¬bitLen i > maxBitLen := by
    rw [bitLen_gt_iff, not_le]
    exact h
  rw [unmarshalText, setString_toString_zero]
  exact if_neg hbits

theorem unmarshalAmino_marshalAmino {u : Uint} (h : u.i.natAbs < 2 ^ maxBitLen) :
    unmarshalAmino (marshalAmino u) = .ok u := by
  rw [unmarshalAmino, marshalAmino, unmarshalText_toString h]
  rfl

end Uint

/-- What `Uint` computes: each operation returns the exact result when it lies in `[0, 2^256)` (for
`Quo`, with a nonzero divisor) and panics otherwise; `Equal`, `GT`, `GTE` and `LT` follow the integer
order and `LTE` is the strict one; the amino codec reads a value back exactly when it lies below
`2^255` in absolute value. -/
theorem uint_arith_order_codec (u u2 : Uint) :
    (∀ r, u.add u2 = .ok r ↔ 0 ≤ u.i + u2.i ∧ u.i + u2.i < 2 ^ 256 ∧ r = ⟨u.i + u2.i⟩) ∧
    (∀ r, u.sub u2 = .ok r ↔ 0 ≤ u.i - u2.i ∧ u.i - u2.i < 2 ^ 256 ∧ r = ⟨u.i - u2.i⟩) ∧
    (∀ r, u.mul u2 = .ok r ↔ 0 ≤ u.i * u2.i ∧ u.i * u2.i < 2 ^ 256 ∧ r = ⟨u.i * u2.i⟩) ∧
    (∀ r, u.quo u2 = .ok r ↔
      u2.i ≠ 0 ∧ 0 ≤ u.i.tdiv u2.i ∧ u.i.tdiv u2.i < 2 ^ 256 ∧ r = ⟨u.i.tdiv u2.i⟩) ∧
    (u.equal u2 = true ↔ u.i = u2.i) ∧ (u.gt u2 = true ↔ u2.i < u.i) ∧
    (u.gte u2 = true ↔ u2.i ≤ u.i) ∧ (u.lt u2 = true ↔ u.i < u2.i) ∧
    (u.lte u2 = true ↔ u.i < u2.i) ∧
    (Uint.unmarshalAmino (Uint.marshalAmino u) = .ok u ↔ u.i.natAbs < 2 ^ maxBitLen) :=
  ⟨fun _ => Uint.add_eq_ok_iff, fun _ => Uint.sub_eq_ok_iff, fun _ => Uint.mul_eq_ok_iff,
    fun _ => Uint.quo_eq_ok_iff, Uint.equal_iff, Uint.gt_iff, Uint.gte_iff, Uint.lt_iff, Uint.lte_iff,
    ⟨Uint.natAbs_lt_of_unmarshalAmino, Uint.unmarshalAmino_marshalAmino⟩⟩

/-- `LTE` holds of no value and itself; the decoder reads `-1` as a `Uint`, and does not read back
the text of `2^255`, a value every constructor admits. -/
theorem uint_lte_and_codecs :
    Uint.lte ⟨1⟩ ⟨1⟩ = false ∧
    Uint.unmarshalAmino "-1" = .ok ⟨-1⟩ ∧
    newUintFromBigInt (2 ^ 255) = .ok ⟨2 ^ 255⟩ ∧
    Uint.unmarshalAmino (Uint.marshalAmino ⟨2 ^ 255⟩) =
      .error ("integer out of range: " ++ toString ((2 : Int) ^ 255)) := by
  refine ⟨rfl, by decide +kernel, ?_, by decide +kernel⟩
  exact newUintFromBigInt_eq_ok_iff.2 ⟨by decide +kernel, by decide +kernel, rfl⟩

end CosmosSdk
