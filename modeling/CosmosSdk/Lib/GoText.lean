import Mathlib

/-!
# Integer text in Go's `math/big`

`(*big.Int).SetString(s, base)` as the `math/big` of Go 1.11.5, the Go of `.circleci/config.yml`,
scans it (`natconv.go`, `intconv.go`): one optional sign (`scanSign`), the mantissa (`nat.scan` with
`fracOk = false`), and nothing after it.  In base `0` the mantissa may start with a prefix: `0x` or
`0X` for base 16, `0b` or `0B` for base 2, or a bare `0` that makes the rest octal; in any other base
it is plain digits of that base.  The `0o` prefix and the `_` separators came with Go 1.13 and are
not read.  `UnmarshalText` is `SetString` in base `0`.  `(*big.Int).String` and `MarshalText` print
base 10 with a `-` for a negative value, which is `toString` on `Int`.

Bases above 36, where upper-case letters count from 36, are not modelled.

The results: the decimal text of an integer reads back in base 10 and base 0
(`setString_toString_ten`, `setString_toString_zero`); in base 10 decimal digits, after a `-` or not,
read as their value (`setString_digits_ten`, `setString_neg_digits_ten`); in base 0 a leading `0`
before octal digits makes them octal (`setString_zero_octal`), and one before an `8` or a `9` is
refused (`setString_zero_eight`).

`GoStrings` has what `strings` does with a text: `Split` at a character, `TrimSpace` (with
`unicode.IsSpace`) and `len` in bytes.  A text joined at a separator it does not hold splits back
into its pieces (`split_intercalate`).
-/

namespace GoBig

/-! ### Scanning -/

/-- The value of a character as a digit of a base up to 36: `MaxBase + 1 = 63` for a character that
is no digit. -/
def digitValue (ch : Char) : Nat :=
  if '0' ≤ ch ∧ ch ≤ '9' then ch.toNat - '0'.toNat
  else if 'a' ≤ ch ∧ ch ≤ 'z' then ch.toNat - 'a'.toNat + 10
  else if 'A' ≤ ch ∧ ch ≤ 'Z' then ch.toNat - 'A'.toNat + 10
  else 63

/-- The errors of `nat.scan`: nothing to read, no digits. -/
inductive ScanError where
  | eof
  | noDigits
  deriving DecidableEq

/-- What the digit loop of `nat.scan` has read: the value and the number of digits. -/
structure Scan where
  value : Nat
  count : Nat

/-- The digit loop of `nat.scan` in base `b`: it stops before the first character that is no digit
of `b`. -/
def scanDigits (b : Nat) : Scan → List Char → Scan × List Char
  | st, [] => (st, [])
  | st, ch :: rest =>
    if digitValue ch < b then scanDigits b ⟨st.value * b + digitValue ch, st.count + 1⟩ rest
    else (st, ch :: rest)

/-- The base `nat.scan` reads in, and what is left after its prefix.  In base `0`, `0x` or `0X`
selects 16 and `0b` or `0B` selects 2, and a character must follow them; a `0` before any other
character selects 8 and counts as no digit; anything else is read in base 10. -/
def scanBase (base : Nat) : List Char → Except ScanError (Nat × List Char)
  | '0' :: ch :: rest =>
    if base = 0 then
      if ch = 'x' ∨ ch = 'X' then (if rest = [] then .error .eof else .ok (16, rest))
      else if ch = 'b' ∨ ch = 'B' then (if rest = [] then .error .eof else .ok (2, rest))
      else .ok (8, ch :: rest)
    else .ok (base, '0' :: ch :: rest)
  | s => .ok (if base = 0 then 10 else base, s)

/-- `nat.scan` with `fracOk = false`: the value read and what is left.  An octal prefix before no
octal digit reads as the digit `0`. -/
def natScan (base : Nat) : List Char → Except ScanError (Nat × List Char)
  | [] => .error .eof
  | ch :: s => do
    let (b, rest) ← scanBase base (ch :: s)
    let (st, rest) := scanDigits b ⟨0, 0⟩ rest
    if st.count = 0 then
      if base = 0 ∧ b = 8 then .ok (0, rest) else .error .noDigits
    else .ok (st.value, rest)

/-- `Int.scan`: `scanSign`, which reads one `-` or `+`, then `nat.scan`. -/
def intScan (base : Nat) : List Char → Except ScanError (Int × List Char)
  | [] => .error .eof
  | ch :: rest =>
    let (neg, s) := if ch = '-' then (true, rest) else if ch = '+' then (false, rest) else (false, ch :: rest)
    match natScan base s with
    | .error e => .error e
    | .ok (n, rest) => .ok (if neg then -(n : Int) else n, rest)

/-- `(*big.Int).SetString`: the scan, which must read the whole text. -/
def setString (s : String) (base : Nat) : Option Int :=
  match intScan base s.toList with
  | .ok (i, []) => some i
  | _ => none

example : setString "0x1F" 0 = some 31 ∧ setString "-010" 0 = some (-8) ∧ setString "0o10" 0 = none ∧
    setString "1_000" 0 = none ∧ setString "0x" 0 = none := by
  decide

/-! ### Decimal digits -/

/-- A decimal digit character. -/
def IsDigit (ch : Char) : Prop := '0' ≤ ch ∧ ch ≤ '9'

instance : DecidablePred IsDigit := fun ch => inferInstanceAs (Decidable ('0' ≤ ch ∧ ch ≤ '9'))

/-- The value of a list of digits in base `b`, most significant first. -/
def digitsValue (b : Nat) (ds : List Char) : Nat := ds.foldl (fun n ch => n * b + digitValue ch) 0

theorem digitValue_of_isDigit {ch : Char} (h : IsDigit ch) : digitValue ch = ch.toNat - '0'.toNat := by
  rw [digitValue, if_pos (show '0' ≤ ch ∧ ch ≤ '9' from h)]

theorem digitValue_lt_ten {ch : Char} (h : IsDigit ch) : digitValue ch < 10 := by
  rw [digitValue_of_isDigit h]
  have h₉ : ch.toNat ≤ 57 := h.2
  have h₀ : '0'.toNat = 48 := rfl
  omega

/-- The digit loop runs through a list of digits of `b` to the first character that is no digit
of `b`. -/
theorem scanDigits_append {b : Nat} {st : Scan} {ds rest : List Char}
    (hds : ∀ ch ∈ ds, digitValue ch < b) (hrest : ∀ ch ∈ rest.head?, b ≤ digitValue ch) :
    scanDigits b st (ds ++ rest) =
      (⟨ds.foldl (fun n ch => n * b + digitValue ch) st.value, st.count + ds.length⟩, rest) := by
  induction ds generalizing st with
  | nil =>
    cases rest with
    | nil => rfl
    | cons ch rest =>
      rw [List.nil_append, scanDigits, if_neg (Nat.not_lt.2 (hrest ch rfl))]
      rfl
  | cons ch ds ih =>
    rw [List.cons_append, scanDigits, if_pos (hds ch List.mem_cons_self),
      ih fun c hc => hds c (List.mem_cons_of_mem _ hc)]
    simp only [List.foldl_cons, List.length_cons]
    rw [Nat.add_assoc, Nat.add_comm 1]

theorem digitValue_digitChar {n : Nat} (h : n < 10) : digitValue (Nat.digitChar n) = n := by
  have key : ∀ n < 10, digitValue (Nat.digitChar n) = n := by decide
  exact key n h

/-- A decimal digit is an ASCII character. -/
theorem IsDigit.toNat_lt {ch : Char} (h : IsDigit ch) : ch.toNat < 128 := by
  have h₉ : ch.toNat ≤ 57 := h.2
  omega

theorem isDigit_of_mem_toDigits {n : Nat} {ch : Char} (h : ch ∈ Nat.toDigits 10 n) : IsDigit ch := by
  have hdigit := Nat.isDigit_of_mem_toDigits (by decide) (by decide) h
  simp only [Char.isDigit, Bool.and_eq_true, decide_eq_true_eq] at hdigit
  exact ⟨hdigit.1, hdigit.2⟩

/-- The decimal digits of `n` are worth `n`. -/
theorem digitsValue_toDigits (n : Nat) : digitsValue 10 (Nat.toDigits 10 n) = n := by
  induction n using Nat.strongRecOn with
  | ind n ih =>
    by_cases hn : n < 10
    · rw [Nat.toDigits_of_lt_base hn, digitsValue, List.foldl_cons, List.foldl_nil,
        digitValue_digitChar hn]
      omega
    · -- the last digit is `n % 10`, those before it the digits of `n / 10`
      rw [Nat.toDigits_of_base_le (by decide) (Nat.not_lt.1 hn), digitsValue, List.foldl_append,
        List.foldl_cons, List.foldl_nil, digitValue_digitChar (Nat.mod_lt n (by decide))]
      have hdiv := ih (n / 10) (Nat.div_lt_self (by omega) (by decide))
      rw [digitsValue] at hdiv
      rw [hdiv]
      omega

/-- The decimal text of a positive number does not start with `0`. -/
theorem head_toDigits_ne_zero {n : Nat} (hn : 0 < n) : (Nat.toDigits 10 n).head? ≠ some '0' := by
  induction n using Nat.strongRecOn with
  | ind n ih =>
    by_cases hlt : n < 10
    · rw [Nat.toDigits_of_lt_base hlt, List.head?_cons, Ne, Option.some.injEq]
      intro h
      have hv := congrArg digitValue h
      rw [digitValue_digitChar hlt] at hv
      exact absurd hv (by rw [show digitValue '0' = 0 from rfl]; omega)
    · have ih' := ih (n / 10) (Nat.div_lt_self hn (by decide)) (by omega)
      obtain ⟨ch, rest, hrest⟩ := List.exists_cons_of_ne_nil (Nat.toDigits_ne_nil : Nat.toDigits 10 (n / 10) ≠ [])
      rw [hrest] at ih'
      rw [Nat.toDigits_of_base_le (by decide) (Nat.not_lt.1 hlt), hrest, List.cons_append]
      exact ih'

/-! ### Reading decimal digits back -/

theorem scanBase_of_ne_zero {base : Nat} (hbase : base ≠ 0) (s : List Char) :
    scanBase base s = .ok (base, s) := by
  unfold scanBase
  split
  · rw [if_neg hbase]
  · rw [if_neg hbase]

/-- In base `0`, a text that does not start with `0` is read in base 10. -/
theorem scanBase_zero_of_head? {s : List Char} (hs : s.head? ≠ some '0') :
    scanBase 0 s = .ok (10, s) := by
  unfold scanBase
  split
  · exact absurd rfl hs
  · rw [if_pos rfl]

/-- Digits of the base the prefix settled on: their value. -/
theorem natScan_of_scanBase {base b : Nat} {s ds : List Char} (hs : s ≠ []) (hds : ds ≠ [])
    (hdigit : ∀ ch ∈ ds, digitValue ch < b) (hscan : scanBase base s = .ok (b, ds)) :
    natScan base s = .ok (digitsValue b ds, []) := by
  have hloop : scanDigits b ⟨0, 0⟩ (ds ++ []) = (⟨digitsValue b ds, ds.length⟩, []) := by
    rw [scanDigits_append hdigit (by simp)]
    simp [digitsValue]
  rw [List.append_nil] at hloop
  obtain ⟨ch, s, rfl⟩ := List.exists_cons_of_ne_nil hs
  rw [natScan, hscan]
  dsimp only [bind, Except.bind]
  rw [hloop]
  dsimp only
  rw [if_neg (by simpa using hds)]

/-- Decimal digits, read in base 10 or, not starting with `0`, in base 0: their value. -/
theorem natScan_digits {base : Nat} {ds : List Char} (hds : ds ≠ []) (hdigit : ∀ ch ∈ ds, IsDigit ch)
    (hscan : scanBase base ds = .ok (10, ds)) : natScan base ds = .ok (digitsValue 10 ds, []) :=
  natScan_of_scanBase hds hds (fun ch hc => digitValue_lt_ten (hdigit ch hc)) hscan

/-- Decimal digits that the base reads in base 10, alone or after a `-`: their value, or its
negation. -/
theorem intScan_digits {base : Nat} {ds : List Char} (hds : ds ≠ []) (hdigit : ∀ ch ∈ ds, IsDigit ch)
    (hscan : scanBase base ds = .ok (10, ds)) :
    intScan base ds = .ok (digitsValue 10 ds, []) ∧
      intScan base ('-' :: ds) = .ok (-(digitsValue 10 ds : Int), []) := by
  have hnat := natScan_digits hds hdigit hscan
  obtain ⟨ch, rest, rfl⟩ := List.exists_cons_of_ne_nil hds
  have hch := hdigit ch List.mem_cons_self
  have hminus : ch ≠ '-' := fun h => absurd (h ▸ hch).1 (by decide)
  have hplus : ch ≠ '+' := fun h => absurd (h ▸ hch).1 (by decide)
  constructor
  · simp only [intScan, if_neg hminus, if_neg hplus, hnat]
    rfl
  · simp only [intScan, if_true, hnat]

theorem toList_toString_ofNat (n : Nat) : (toString (Int.ofNat n)).toList = Nat.toDigits 10 n :=
  Nat.toList_repr

theorem toList_toString_negSucc (m : Nat) :
    (toString (Int.negSucc m)).toList = '-' :: Nat.toDigits 10 (m + 1) := by
  show ("-" ++ Nat.repr (m + 1)).toList = _
  rw [String.toList_append, Nat.toList_repr]
  rfl

/-- The decimal text of an integer reads back in base 10. -/
theorem setString_toString_ten (i : Int) : setString (toString i) 10 = some i := by
  have hscan := fun n => scanBase_of_ne_zero (by decide : (10 : Nat) ≠ 0) (Nat.toDigits 10 n)
  cases i with
  | ofNat n =>
    rw [setString, toList_toString_ofNat,
      (intScan_digits Nat.toDigits_ne_nil (fun _ => isDigit_of_mem_toDigits) (hscan n)).1,
      digitsValue_toDigits]
    rfl
  | negSucc m =>
    rw [setString, toList_toString_negSucc,
      (intScan_digits Nat.toDigits_ne_nil (fun _ => isDigit_of_mem_toDigits) (hscan (m + 1))).2,
      digitsValue_toDigits]
    rfl

/-- The decimal text of an integer reads back in base 0: it starts with `0` only when it is `0`. -/
theorem setString_toString_zero (i : Int) : setString (toString i) 0 = some i := by
  cases i with
  | ofNat n =>
    rcases Nat.eq_zero_or_pos n with rfl | hn
    · rfl
    · rw [setString, toList_toString_ofNat,
        (intScan_digits Nat.toDigits_ne_nil (fun _ => isDigit_of_mem_toDigits)
          (scanBase_zero_of_head? (head_toDigits_ne_zero hn))).1, digitsValue_toDigits]
      rfl
  | negSucc m =>
    rw [setString, toList_toString_negSucc,
      (intScan_digits Nat.toDigits_ne_nil (fun _ => isDigit_of_mem_toDigits)
        (scanBase_zero_of_head? (head_toDigits_ne_zero (Nat.succ_pos m)))).2, digitsValue_toDigits]
    rfl

/-- A nonempty list of decimal digits reads as its value in base 10. -/
theorem setString_digits_ten {ds : List Char} (hds : ds ≠ []) (hdigit : ∀ ch ∈ ds, IsDigit ch) :
    setString (String.ofList ds) 10 = some (digitsValue 10 ds) := by
  rw [setString, String.toList_ofList,
    (intScan_digits hds hdigit (scanBase_of_ne_zero (by decide) ds)).1]
  rfl

/-- A `-` and a nonempty list of decimal digits read as the negated value in base 10. -/
theorem setString_neg_digits_ten {ds : List Char} (hds : ds ≠ []) (hdigit : ∀ ch ∈ ds, IsDigit ch) :
    setString (String.ofList ('-' :: ds)) 10 = some (-(digitsValue 10 ds : Int)) := by
  rw [setString, String.toList_ofList,
    (intScan_digits hds hdigit (scanBase_of_ne_zero (by decide) ds)).2]

/-- Digits written after others: the value of the first ones is shifted by the length of the rest. -/
theorem digitsValue_append (b : Nat) (xs ys : List Char) :
    digitsValue b (xs ++ ys) = digitsValue b xs * b ^ ys.length + digitsValue b ys := by
  -- the loop started from `a` is the loop started from `0`, plus `a` shifted past every digit
  have hfold : ∀ (a : Nat) (ys : List Char), ys.foldl (fun n ch => n * b + digitValue ch) a =
      a * b ^ ys.length + ys.foldl (fun n ch => n * b + digitValue ch) 0 := by
    intro a ys
    induction ys generalizing a with
    | nil => simp
    | cons y ys ih =>
      rw [List.foldl_cons, List.foldl_cons, ih, ih (0 * b + digitValue y), List.length_cons,
        Nat.pow_succ]
      grind
  rw [digitsValue, List.foldl_append, hfold]
  rfl

/-! ### A leading zero in base 0 -/

/-- In base `0`, a `0` before a decimal digit is the octal prefix. -/
theorem scanBase_zero_octal {ch : Char} {rest : List Char} (hch : IsDigit ch) :
    scanBase 0 ('0' :: ch :: rest) = .ok (8, ch :: rest) := by
  have hletter : ∀ c : Char, ¬ IsDigit c → ch ≠ c := fun c hc h => hc (h ▸ hch)
  have hx : ¬ (ch = 'x' ∨ ch = 'X') := by rintro (h | h) <;> exact hletter _ (by decide) h
  have hb : ¬ (ch = 'b' ∨ ch = 'B') := by rintro (h | h) <;> exact hletter _ (by decide) h
  rw [scanBase, if_pos rfl, if_neg hx, if_neg hb]

/-- In base `0`, a `0` before octal digits makes them octal. -/
theorem setString_zero_octal {ds : List Char} (hds : ds ≠ [])
    (hoct : ∀ ch ∈ ds, IsDigit ch ∧ digitValue ch < 8) :
    setString (String.ofList ('0' :: ds)) 0 = some (digitsValue 8 ds) := by
  obtain ⟨ch, rest, rfl⟩ := List.exists_cons_of_ne_nil hds
  have hnat := natScan_of_scanBase (List.cons_ne_nil _ _) hds (fun c hc => (hoct c hc).2)
    (scanBase_zero_octal (hoct ch List.mem_cons_self).1)
  rw [setString, String.toList_ofList]
  simp only [intScan, if_neg (show '0' ≠ '-' by decide), if_neg (show '0' ≠ '+' by decide), hnat]
  rfl

/-- In base `0`, a `0` before decimal digits that are not all octal: the scan stops at the first `8`
or `9`, and the text is refused. -/
theorem setString_zero_eight {ds rest : List Char} {ch : Char}
    (hoct : ∀ c ∈ ds, IsDigit c ∧ digitValue c < 8) (hch : IsDigit ch) (height : 8 ≤ digitValue ch) :
    setString (String.ofList ('0' :: ds ++ ch :: rest)) 0 = none := by
  have hhead : ∀ c ∈ (ds ++ ch :: rest).head?, IsDigit c := by
    intro c hc
    cases ds with
    | nil => exact Option.some.inj hc ▸ hch
    | cons d ds => exact Option.some.inj hc ▸ (hoct d List.mem_cons_self).1
  obtain ⟨c, t, hct⟩ := List.exists_cons_of_ne_nil (List.append_ne_nil_of_right_ne_nil ds (List.cons_ne_nil ch rest))
  have hscan : scanBase 0 ('0' :: (ds ++ ch :: rest)) = .ok (8, ds ++ ch :: rest) := by
    rw [hct]
    exact scanBase_zero_octal (hhead c (by rw [hct]; rfl))
  have hloop : scanDigits 8 ⟨0, 0⟩ (ds ++ ch :: rest) =
      (⟨digitsValue 8 ds, ds.length⟩, ch :: rest) := by
    rw [@scanDigits_append 8 ⟨0, 0⟩ ds (ch :: rest) (fun c hc => (hoct c hc).2)
      fun c hc => (Option.some.inj hc : ch = c) ▸ height]
    simp [digitsValue]
  have hnat : ∃ n, natScan 0 ('0' :: (ds ++ ch :: rest)) = .ok (n, ch :: rest) := by
    rw [natScan, hscan]
    dsimp only [bind, Except.bind]
    rw [hloop]
    dsimp only
    by_cases hcount : ds.length = 0
    · exact ⟨0, by rw [if_pos hcount, if_pos ⟨rfl, rfl⟩]⟩
    · exact ⟨digitsValue 8 ds, by rw [if_neg hcount]⟩
  obtain ⟨n, hn⟩ := hnat
  rw [setString, String.toList_ofList, List.cons_append]
  simp only [intScan, if_neg (show '0' ≠ '-' by decide), if_neg (show '0' ≠ '+' by decide), hn]

/-- Leading zeros add nothing to the value. -/
theorem digitsValue_replicate_zero_append (b k : Nat) (ds : List Char) :
    digitsValue b (List.replicate k '0' ++ ds) = digitsValue b ds := by
  have hzeros : ∀ k, (List.replicate k '0').foldl (fun n ch => n * b + digitValue ch) 0 = 0 := by
    intro k
    induction k with
    | zero => rfl
    | succ k ih =>
      have hzero : digitValue '0' = 0 := by decide
      rw [List.replicate_succ', List.foldl_append, ih, List.foldl_cons, List.foldl_nil, hzero,
        Nat.zero_mul]
  rw [digitsValue, List.foldl_append, hzeros]
  rfl

end GoBig

namespace GoStrings

/-- `strings.Split` with a separator of one ASCII character: the pieces between its occurrences. -/
def split (sep : Char) : List Char → List (List Char)
  | [] => [[]]
  | ch :: rest =>
    if ch = sep then [] :: split sep rest
    else match split sep rest with
      | [] => [[ch]]
      | piece :: pieces => (ch :: piece) :: pieces

/-- The length of a text in bytes, as `len` counts it: the UTF-8 size of its characters. -/
def byteLen (s : List Char) : Nat := (s.map Char.utf8Size).sum

theorem split_of_not_mem {sep : Char} {s : List Char} (h : sep ∉ s) : split sep s = [s] := by
  induction s with
  | nil => rfl
  | cons ch rest ih =>
    rw [List.mem_cons, not_or] at h
    rw [split, if_neg (Ne.symm h.1), ih h.2]

theorem split_append_cons {sep : Char} {s rest : List Char} (h : sep ∉ s) :
    split sep (s ++ sep :: rest) = s :: split sep rest := by
  induction s with
  | nil => rw [List.nil_append, split, if_pos rfl]
  | cons ch s ih =>
    rw [List.mem_cons, not_or] at h
    rw [List.cons_append, split, if_neg (Ne.symm h.1), ih h.2]

theorem utf8Size_of_lt {ch : Char} (h : ch.toNat < 128) : ch.utf8Size = 1 := by
  unfold Char.utf8Size
  rw [if_pos]
  rw [UInt32.le_iff_toNat_le]
  show ch.toNat ≤ 127
  omega

theorem byteLen_ne_zero {s : List Char} (h : s ≠ []) : byteLen s ≠ 0 := by
  obtain ⟨ch, rest, rfl⟩ := List.exists_cons_of_ne_nil h
  rw [byteLen, List.map_cons, List.sum_cons]
  have := Char.utf8Size_pos ch
  omega

/-- An ASCII text is as long in bytes as in characters. -/
theorem byteLen_of_ascii {s : List Char} (h : ∀ ch ∈ s, ch.toNat < 128) : byteLen s = s.length := by
  induction s with
  | nil => rfl
  | cons ch rest ih =>
    have hrest := ih fun c hc => h c (List.mem_cons_of_mem _ hc)
    rw [byteLen, List.map_cons, List.sum_cons, ← byteLen, hrest,
      utf8Size_of_lt (h ch List.mem_cons_self), List.length_cons, Nat.add_comm]

/-- `unicode.IsSpace`: in Latin-1 the characters `\t \n \v \f \r`, the space, U+0085 and U+00A0;
above it those of the `White_Space` table. -/
def isSpace (ch : Char) : Bool :=
  if ch.toNat ≤ 0xFF then
    ch.toNat == 0x09 || ch.toNat == 0x0A || ch.toNat == 0x0B || ch.toNat == 0x0C || ch.toNat == 0x0D ||
      ch.toNat == 0x20 || ch.toNat == 0x85 || ch.toNat == 0xA0
  else
    ch.toNat == 0x1680 || (0x2000 ≤ ch.toNat && ch.toNat ≤ 0x200A) || ch.toNat == 0x2028 ||
      ch.toNat == 0x2029 || ch.toNat == 0x202F || ch.toNat == 0x205F || ch.toNat == 0x3000

/-- `strings.TrimSpace`: the text without the spaces it starts and ends with. -/
def trimSpace (s : List Char) : List Char := ((s.dropWhile isSpace).reverse.dropWhile isSpace).reverse

/-- A printable ASCII character other than the space is no space. -/
theorem isSpace_of_printable {ch : Char} (h : 0x21 ≤ ch.toNat ∧ ch.toNat ≤ 0x7E) : isSpace ch = false := by
  rw [isSpace, if_pos (by omega)]
  simp only [Bool.or_eq_false_iff, beq_eq_false_iff_ne, ne_eq]
  omega

theorem dropWhile_of_forall {p : Char → Bool} {s : List Char} (h : ∀ ch ∈ s.head?, p ch = false) :
    s.dropWhile p = s := by
  cases s with
  | nil => rfl
  | cons ch rest => rw [List.dropWhile_cons, if_neg (by rw [h ch rfl]; decide)]

/-- A text with no spaces is its own trim. -/
theorem trimSpace_of_forall {s : List Char} (h : ∀ ch ∈ s, isSpace ch = false) : trimSpace s = s := by
  have hleft : s.dropWhile isSpace = s := dropWhile_of_forall fun ch hch => h ch (List.mem_of_mem_head? hch)
  have hright : s.reverse.dropWhile isSpace = s.reverse := dropWhile_of_forall fun ch hch =>
    h ch (List.mem_reverse.1 (List.mem_of_mem_head? hch))
  rw [trimSpace, hleft, hright, List.reverse_reverse]

/-- Pieces joined by a separator they do not hold are split back into the same pieces. -/
theorem split_intercalate {sep : Char} {pieces : List (List Char)} (hne : pieces ≠ [])
    (h : ∀ piece ∈ pieces, sep ∉ piece) : split sep ([sep].intercalate pieces) = pieces := by
  induction pieces with
  | nil => exact absurd rfl hne
  | cons piece pieces ih =>
    cases pieces with
    | nil => rw [List.intercalate_singleton, split_of_not_mem (h piece List.mem_cons_self)]
    | cons piece' pieces =>
      rw [List.intercalate_cons_cons, List.append_assoc, List.singleton_append,
        split_append_cons (h piece List.mem_cons_self),
        ih (List.cons_ne_nil _ _) fun p hp => h p (List.mem_cons_of_mem _ hp)]

/-- A join whose first piece is not empty is not empty. -/
theorem intercalate_ne_nil {α : Type} {sep piece : List α} {pieces : List (List α)} (h : piece ≠ []) :
    sep.intercalate (piece :: pieces) ≠ [] := by
  cases pieces with
  | nil => rwa [List.intercalate_singleton]
  | cons piece' pieces =>
    rw [List.intercalate_cons_cons, List.append_assoc]
    exact List.append_ne_nil_of_left_ne_nil h _

/-- A character of a join is the separator or a character of a piece. -/
theorem mem_intercalate {sep ch : Char} {pieces : List (List Char)} (h : ch ∈ [sep].intercalate pieces) :
    ch = sep ∨ ∃ piece ∈ pieces, ch ∈ piece := by
  induction pieces with
  | nil => simp at h
  | cons piece pieces ih =>
    cases pieces with
    | nil =>
      rw [List.intercalate_singleton] at h
      exact Or.inr ⟨piece, List.mem_cons_self, h⟩
    | cons piece' pieces =>
      rw [List.intercalate_cons_cons, List.mem_append, List.mem_append, List.mem_singleton] at h
      rcases h with (h | h) | h
      · exact Or.inr ⟨piece, List.mem_cons_self, h⟩
      · exact Or.inl h
      · rcases ih h with h | ⟨p, hp, hch⟩
        · exact Or.inl h
        · exact Or.inr ⟨p, List.mem_cons_of_mem _ hp, hch⟩

end GoStrings
