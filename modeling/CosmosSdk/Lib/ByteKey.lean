import Mathlib

/-!
# Keys made of fixed-width fields

A store key that packs several fields into one byte string is compared byte by byte, as `List.lt`
compares lists.  When the first field has the same width in both keys, the keys compare as their
first fields do, and as the rest when those agree (`append_lt_append_iff`).  The fields are
encoded so that this order is the one wanted:

* a number below `256 ^ w` as its `w` big-endian bytes (`bigEndian`), which compare as the numbers
  do (`bigEndian_lt_bigEndian_iff`) and tell them apart (`bigEndian_inj`);
* a byte string with every byte complemented, which reverses the order of strings of one length
  (`map_complement_lt_iff`) and is undone by complementing again.

`sliceCopy` is Go's `copy` into a slice of fixed length.
-/

namespace ByteKey

/-! ### Comparing concatenations -/

section Lex

variable {α : Type*} [LT α]

/-- Keys whose first parts have one length compare by their first parts, then by the rest. -/
theorem append_lt_append_iff {a c : List α} (b d : List α) (h : a.length = c.length) :
    a ++ b < c ++ d ↔ a < c ∨ a = c ∧ b < d := by
  induction a generalizing c with
  | nil =>
    obtain rfl : c = [] := List.length_eq_zero_iff.1 h.symm
    simp [List.not_lt_nil]
  | cons x a ih =>
    cases c with
    | nil => cases h
    | cons y c =>
      rw [List.cons_append, List.cons_append, List.cons_lt_cons_iff, List.cons_lt_cons_iff,
        ih (by simpa using h), List.cons.injEq]
      tauto

/-- An injective map that reverses the order of elements reverses the order of lists of one
length. -/
theorem map_lt_map_iff {β : Type*} [LT β] {f : α → β} (hlt : ∀ x y, f x < f y ↔ y < x)
    (hinj : Function.Injective f) {l₁ l₂ : List α} (h : l₁.length = l₂.length) :
    l₁.map f < l₂.map f ↔ l₂ < l₁ := by
  induction l₁ generalizing l₂ with
  | nil =>
    obtain rfl : l₂ = [] := List.length_eq_zero_iff.1 h.symm
    simp [List.not_lt_nil]
  | cons x l₁ ih =>
    cases l₂ with
    | nil => cases h
    | cons y l₂ =>
      rw [List.map_cons, List.map_cons, List.cons_lt_cons_iff, List.cons_lt_cons_iff, hlt,
        ih (by simpa using h), hinj.eq_iff]
      exact or_congr_right (and_congr_left' eq_comm)

end Lex

/-! ### Big-endian numbers -/

/-- The `w` bytes of `x`, the most significant first, for `x` below `256 ^ w`: what
`binary.BigEndian.PutUint64` writes for `w = 8`. -/
def bigEndian : Nat → Nat → List UInt8
  | 0, _ => []
  | w + 1, x => UInt8.ofNat (x / 256 ^ w) :: bigEndian w (x % 256 ^ w)

@[simp] theorem length_bigEndian (w x : Nat) : (bigEndian w x).length = w := by
  induction w generalizing x with
  | zero => rfl
  | succ w ih => simp [bigEndian, ih]

/-- A number compares with another as its quotient by `p`, then its remainder. -/
theorem lt_iff_div_lt_or_mod_lt (p : Nat) {x y : Nat} :
    x < y ↔ x / p < y / p ∨ x / p = y / p ∧ x % p < y % p := by
  have hx := (Nat.div_add_mod x p).symm
  have hy := (Nat.div_add_mod y p).symm
  constructor
  · intro h
    rcases Nat.lt_or_eq_of_le (Nat.div_le_div_right (c := p) h.le) with hq | hq
    · exact .inl hq
    · refine .inr ⟨hq, ?_⟩
      rw [hq] at hx
      omega
  · rintro (hq | ⟨hq, hr⟩)
    · exact Nat.lt_of_div_lt_div hq
    · rw [hq] at hx
      omega

/-- The leading byte of a number below `256 ^ (w + 1)`: its quotient by `256 ^ w`, read exactly. -/
theorem toNat_leading {w x : Nat} (hx : x < 256 ^ (w + 1)) :
    (UInt8.ofNat (x / 256 ^ w)).toNat = x / 256 ^ w := by
  have hlt : x / 256 ^ w < 256 := Nat.div_lt_of_lt_mul (by rwa [← Nat.pow_succ])
  rw [UInt8.toNat_ofNat', Nat.mod_eq_of_lt hlt]

theorem bigEndian_lt_bigEndian_iff {w x y : Nat} (hx : x < 256 ^ w) (hy : y < 256 ^ w) :
    bigEndian w x < bigEndian w y ↔ x < y := by
  induction w generalizing x y with
  | zero =>
    obtain ⟨rfl, rfl⟩ : x = 0 ∧ y = 0 := by simp_all
    simp [bigEndian, List.not_lt_nil]
  | succ w ih =>
    have hpos : 0 < 256 ^ w := Nat.pow_pos (by decide)
    -- the leading bytes compare as the quotients, the rest as the remainders
    rw [bigEndian, bigEndian, List.cons_lt_cons_iff, UInt8.lt_iff_toNat_lt, ← UInt8.toNat_inj,
      toNat_leading hx, toNat_leading hy, ih (Nat.mod_lt x hpos) (Nat.mod_lt y hpos)]
    exact (lt_iff_div_lt_or_mod_lt _).symm

theorem bigEndian_inj {w x y : Nat} (hx : x < 256 ^ w) (hy : y < 256 ^ w) :
    bigEndian w x = bigEndian w y ↔ x = y := by
  refine ⟨fun h => ?_, fun h => h ▸ rfl⟩
  induction w generalizing x y with
  | zero => simp_all
  | succ w ih =>
    have hpos : 0 < 256 ^ w := Nat.pow_pos (by decide)
    rw [bigEndian, bigEndian, List.cons.injEq, ← UInt8.toNat_inj, toNat_leading hx,
      toNat_leading hy] at h
    have hmod := ih (Nat.mod_lt x hpos) (Nat.mod_lt y hpos) h.2
    rw [← Nat.div_add_mod x (256 ^ w), ← Nat.div_add_mod y (256 ^ w), h.1, hmod]

/-! ### Complemented bytes -/

theorem complement_lt_complement_iff (a b : UInt8) : ~~~a < ~~~b ↔ b < a := by
  have ha := a.toNat_lt
  have hb := b.toNat_lt
  rw [UInt8.lt_iff_toNat_lt, UInt8.lt_iff_toNat_lt, UInt8.toNat_not, UInt8.toNat_not]
  simp only [UInt8.size] at ha hb ⊢
  omega

theorem complement_injective : Function.Injective fun b : UInt8 => ~~~b :=
  fun a b h => by simpa using congrArg (fun c : UInt8 => ~~~c) h

/-- Complementing every byte reverses the order of byte strings of one length. -/
theorem map_complement_lt_iff {l₁ l₂ : List UInt8} (h : l₁.length = l₂.length) :
    l₁.map (~~~·) < l₂.map (~~~·) ↔ l₂ < l₁ :=
  map_lt_map_iff complement_lt_complement_iff complement_injective h

@[simp] theorem map_complement_complement (l : List UInt8) : (l.map (~~~·)).map (~~~·) = l := by
  simp [Function.comp_def]

/-! ### Go's `copy` -/

/-- `copy(dst, src)`: the first `min (len dst) (len src)` elements of `dst` replaced by those of
`src`; the result is what `dst` then holds. -/
def sliceCopy {α : Type*} (dst src : List α) : List α := src.take dst.length ++ dst.drop src.length

theorem sliceCopy_of_length_eq {α : Type*} {dst src : List α} (h : src.length = dst.length) :
    sliceCopy dst src = src := by
  rw [sliceCopy, ← h, List.take_length, List.drop_eq_nil_of_le h.ge, List.append_nil]

end ByteKey
