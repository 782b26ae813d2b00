import CosmosSdk.Types.Decimal
import CosmosSdk.Lib.GoText

/-!
# The text of a decimal

`NewDecFromStr` (`types/decimal.go`) reads a decimal from a text: it strips one leading `-` by hand,
splits the rest at `.`, pads the fraction to `Precision` digits and hands the digits to
`big.Int.SetString` in base 10.  `Dec.String` prints the digits of `|d|` with a point before the
last eighteen.  The grammar the code's comment describes, `-?[0-9]+(\.[0-9]{1,18})?`, is `DecText`:
a structure that carries the shape of its text, with the value the text denotes.

* `newDecFromStr_text`: every text of the grammar is read as the value it denotes.
* `toString_eq_text`: `Dec.String` prints a text of the grammar whose value is the decimal, so
  `NewDecFromStr` reads back every printed decimal (`dec_text_round_trip`).
* `newDecFromStr_two_signs`: `SetString` reads a sign of its own, so a second `-` before a printed
  negative decimal is read too, as the positive value, although no text of the grammar has two signs.

The `%0Ns` padding of the fraction is the zero padding of strings of the Go releases of the code's
time, `N` zeros.
-/

namespace CosmosSdk

open GoBig GoStrings

/-! ### The parser -/

namespace Dec

/-- The part of `NewDecFromStr` after the sign: the text split at `.`, the fraction padded to
`Precision` digits, and the digits read by `SetString` in base 10. -/
def combinedOf (str : List Char) : Except Error Int :=
  let strs := split '.' str
  let whole := strs.headD []
  let parts : Except Error (Nat × List Char) :=
    match strs with
    | [_, decs] =>
      -- has a decimal place
      if byteLen decs = 0 ∨ byteLen whole = 0 then .error (errUnknownRequest "bad decimal length")
      else .ok (byteLen decs, whole ++ decs)
    | _ :: _ :: _ :: _ => .error (errUnknownRequest "too many periods to be a decimal string")
    | _ => .ok (0, whole)
  match parts with
  | .error err => .error err
  | .ok (lenDecs, combinedStr) =>
    if lenDecs > precision then
      .error (errUnknownRequest
        ("too much precision, maximum " ++ Nat.repr precision ++ ", len decimal " ++ Nat.repr lenDecs))
    else
      -- add some extra zeros to correct to the precision factor
      let combinedStr := combinedStr ++ List.replicate (precision - lenDecs) '0'
      match setString (String.ofList combinedStr) 10 with
      | some combined => .ok combined
      | none => .error (errUnknownRequest
          ("bad string to integer conversion, combinedStr: " ++ String.ofList combinedStr))

/-- `NewDecFromStr`.  Only the first byte is checked for a `-`; `len` counts bytes. -/
def newDecFromStr (str : String) : Except Error Dec :=
  let s := str.toList
  if byteLen s = 0 then .error (errUnknownRequest "decimal string is empty")
  else
    -- first extract any negative symbol
    let (neg, s) := if s.head? = some '-' then (true, s.tail) else (false, s)
    if byteLen s = 0 then .error (errUnknownRequest "decimal string is empty")
    else match combinedOf s with
      | .error err => .error err
      | .ok combined => .ok ⟨if neg then -combined else combined⟩

end Dec

/-! ### The grammar -/

/-- A text of the grammar `-?[0-9]+(\.[0-9]{1,18})?`: a sign, the integer digits and at most
`Precision` fraction digits; the point is written before a nonempty fraction only. -/
structure DecText where
  neg : Bool
  whole : List Char
  frac : List Char
  whole_ne_nil : whole ≠ []
  whole_digits : ∀ ch ∈ whole, IsDigit ch
  frac_digits : ∀ ch ∈ frac, IsDigit ch
  frac_length : frac.length ≤ precision

namespace DecText

/-- The fraction as written: nothing, or the point and the digits. -/
def point (frac : List Char) : List Char := if frac = [] then [] else '.' :: frac

def text (t : DecText) : List Char := (if t.neg then ['-'] else []) ++ t.whole ++ point t.frac

/-- The value the text denotes, in units of `10⁻¹⁸`. -/
def value (t : DecText) : Int :=
  let v : Nat := digitsValue 10 t.whole * 10 ^ precision + digitsValue 10 t.frac * 10 ^ (precision - t.frac.length)
  if t.neg then -(v : Int) else v

/-- The integer digits start with a digit, not with a sign. -/
theorem head?_whole_append_ne_minus (t : DecText) (rest : List Char) :
    (t.whole ++ rest).head? ≠ some '-' := by
  obtain ⟨ch, whole, hwhole⟩ := List.exists_cons_of_ne_nil t.whole_ne_nil
  have hdigit := t.whole_digits ch (by rw [hwhole]; exact List.mem_cons_self)
  rw [hwhole, List.cons_append, List.head?_cons, Ne, Option.some.injEq]
  intro hminus
  rw [hminus] at hdigit
  exact absurd hdigit (by decide)

/-- No text of the grammar has a second sign. -/
theorem text_ne_minus_minus (t : DecText) (rest : List Char) : t.text ≠ '-' :: '-' :: rest := by
  intro htext
  rw [text, List.append_assoc] at htext
  cases hneg : t.neg with
  | false =>
    rw [hneg, if_neg Bool.false_ne_true, List.nil_append] at htext
    exact t.head?_whole_append_ne_minus _ (by rw [htext]; rfl)
  | true =>
    rw [hneg, if_pos rfl, List.singleton_append, List.cons.injEq] at htext
    exact t.head?_whole_append_ne_minus _ (by rw [htext.2]; rfl)

/-- The digits `SetString` reads: the integer digits, the fraction and the padding. -/
theorem padded_digits (t : DecText) :
    ∀ ch ∈ t.whole ++ t.frac ++ List.replicate (precision - t.frac.length) '0', IsDigit ch := by
  intro ch hch
  rw [List.mem_append, List.mem_append] at hch
  rcases hch with (hw | hf) | hz
  · exact t.whole_digits ch hw
  · exact t.frac_digits ch hf
  · rw [List.eq_of_mem_replicate hz]
    decide

theorem padded_ne_nil (t : DecText) :
    t.whole ++ t.frac ++ List.replicate (precision - t.frac.length) '0' ≠ [] :=
  List.append_ne_nil_of_left_ne_nil (List.append_ne_nil_of_left_ne_nil t.whole_ne_nil _) _

end DecText

/-! ### Reading a text of the grammar -/

namespace Dec

theorem byteLen_of_digits {l : List Char} (h : ∀ ch ∈ l, IsDigit ch) : byteLen l = l.length :=
  byteLen_of_ascii fun ch hch => (h ch hch).toNat_lt

theorem dot_not_mem_of_digits {l : List Char} (h : ∀ ch ∈ l, IsDigit ch) : '.' ∉ l :=
  fun hmem => absurd (h '.' hmem) (by decide)

/-- The digits before the point and after it, padded to `Precision`, are what `SetString` reads. -/
theorem combinedOf_point {whole frac : List Char} (hwhole : whole ≠ []) (hdot : '.' ∉ whole)
    (hfrac : ∀ ch ∈ frac, IsDigit ch) (hlen : frac.length ≤ precision) {combined : Int}
    (hset : setString (String.ofList (whole ++ frac ++ List.replicate (precision - frac.length) '0')) 10 =
      some combined) :
    combinedOf (whole ++ DecText.point frac) = .ok combined := by
  have hnot : ¬ frac.length > precision := Nat.not_lt.2 hlen
  by_cases hnil : frac = []
  · -- no point: the text is one piece
    subst hnil
    rw [DecText.point, if_pos rfl, List.append_nil]
    rw [List.append_nil, List.length_nil] at hset
    unfold combinedOf
    rw [split_of_not_mem hdot]
    dsimp only
    rw [if_neg (by decide), List.headD_cons, hset]
  · -- one point: two pieces, the fraction of `frac.length` bytes
    rw [DecText.point, if_neg hnil]
    unfold combinedOf
    rw [split_append_cons hdot, split_of_not_mem (dot_not_mem_of_digits hfrac)]
    dsimp only
    rw [List.headD_cons, if_neg (not_or.2 ⟨byteLen_ne_zero hnil, byteLen_ne_zero hwhole⟩), byteLen_of_digits hfrac]
    dsimp only
    rw [if_neg hnot, hset]

/-- The value of the padded digits: the integer part shifted by `Precision` digits, the fraction by
the padding. -/
theorem digitsValue_padded {whole frac : List Char} (hlen : frac.length ≤ precision) :
    digitsValue 10 (whole ++ frac ++ List.replicate (precision - frac.length) '0') =
      digitsValue 10 whole * 10 ^ precision + digitsValue 10 frac * 10 ^ (precision - frac.length) := by
  have hzeros : digitsValue 10 (List.replicate (precision - frac.length) '0') = 0 := by
    rw [← List.append_nil (List.replicate _ '0'), digitsValue_replicate_zero_append]
    rfl
  rw [digitsValue_append, digitsValue_append, hzeros, List.length_replicate, Nat.add_zero,
    Nat.add_mul, Nat.mul_assoc, ← Nat.pow_add, Nat.add_sub_cancel' hlen]

/-- The sign: a text that is `-` and `s`, or `s` alone when `s` starts with no `-`, reads as what
`combinedOf` reads from `s`, negated after a `-`. -/
theorem newDecFromStr_of_combinedOf {str : String} (neg : Bool) {s : List Char} (hs : s ≠ [])
    (hhead : neg = false → s.head? ≠ some '-')
    (hstr : str.toList = (if neg then ['-'] else []) ++ s) {combined : Int}
    (hcombined : combinedOf s = .ok combined) :
    newDecFromStr str = .ok ⟨if neg then -combined else combined⟩ := by
  unfold newDecFromStr
  cases neg with
  | false =>
    rw [if_neg Bool.false_ne_true, List.nil_append] at hstr
    rw [hstr, if_neg (byteLen_ne_zero hs)]
    dsimp only
    rw [if_neg (hhead rfl)]
    dsimp only
    rw [if_neg (byteLen_ne_zero hs), hcombined]
  | true =>
    rw [if_pos rfl, List.singleton_append] at hstr
    rw [hstr, if_neg (byteLen_ne_zero (List.cons_ne_nil _ _))]
    rw [List.head?_cons, if_pos rfl]
    dsimp only
    rw [List.tail_cons, if_neg (byteLen_ne_zero hs), hcombined]

/-- Every text of the grammar is read as the value it denotes. -/
theorem newDecFromStr_text (t : DecText) : newDecFromStr (String.ofList t.text) = .ok ⟨t.value⟩ := by
  have hset := setString_digits_ten t.padded_ne_nil t.padded_digits
  rw [digitsValue_padded t.frac_length] at hset
  have hcombined := combinedOf_point t.whole_ne_nil (dot_not_mem_of_digits t.whole_digits)
    t.frac_digits t.frac_length hset
  have hs : t.whole ++ DecText.point t.frac ≠ [] := List.append_ne_nil_of_left_ne_nil t.whole_ne_nil _
  rw [newDecFromStr_of_combinedOf t.neg hs (fun _ => t.head?_whole_append_ne_minus _)
    (by rw [String.toList_ofList, DecText.text, List.append_assoc]) hcombined, DecText.value]

/-! ### Printing -/

/-- The body `Dec.String` prints from the decimal digits of `|d|`: an integer part, a point and
`Precision` digits, with the value of the digits. -/
theorem body_split (digits : List Char) (hdigit : ∀ ch ∈ digits, IsDigit ch) (hne : digits ≠ []) :
    ∃ whole frac : List Char, whole ≠ [] ∧ (∀ ch ∈ whole, IsDigit ch) ∧
      (∀ ch ∈ frac, IsDigit ch) ∧ frac.length = precision ∧
      (if digits.length ≤ precision then
        "0." ++ String.ofList (List.replicate (precision - digits.length) '0' ++ digits)
      else String.ofList (digits.take (digits.length - precision) ++
        '.' :: digits.drop (digits.length - precision))).toList = whole ++ '.' :: frac ∧
      digitsValue 10 whole * 10 ^ precision + digitsValue 10 frac = digitsValue 10 digits := by
  by_cases hshort : digits.length ≤ precision
  · -- `0.` and the digits padded with zeros on the left
    refine ⟨['0'], List.replicate (precision - digits.length) '0' ++ digits, List.cons_ne_nil _ _,
      fun _ hc => List.mem_singleton.1 hc ▸ by decide, ?_, ?_, ?_, ?_⟩
    · intro ch hch
      rcases List.mem_append.1 hch with hz | hd
      · rw [List.eq_of_mem_replicate hz]
        decide
      · exact hdigit ch hd
    · rw [List.length_append, List.length_replicate]
      omega
    · simp only [if_pos hshort, String.toList_append, String.toList_ofList]
      rfl
    · rw [digitsValue_replicate_zero_append]
      show 0 * 10 ^ precision + digitsValue 10 digits = digitsValue 10 digits
      omega
  · -- the digits cut before their last `Precision`
    have hk : 0 < digits.length - precision := by omega
    refine ⟨digits.take (digits.length - precision), digits.drop (digits.length - precision),
      ?_, fun ch hch => hdigit ch (List.mem_of_mem_take hch),
      fun ch hch => hdigit ch (List.mem_of_mem_drop hch), ?_, ?_, ?_⟩
    · intro htake
      rcases List.take_eq_nil_iff.1 htake with hzero | hnil
      · omega
      · exact hne hnil
    · rw [List.length_drop]
      omega
    · rw [if_neg hshort, String.toList_ofList]
    · have hlen : (digits.drop (digits.length - precision)).length = precision := by
        rw [List.length_drop]
        omega
      have happend := digitsValue_append 10 (digits.take (digits.length - precision))
        (digits.drop (digits.length - precision))
      rw [hlen, List.take_append_drop] at happend
      exact happend.symm

/-- `Dec.String` prints a text of the grammar, with the sign of the decimal and its value. -/
theorem toString_eq_text (d : Dec) :
    ∃ t : DecText, d.toString.toList = t.text ∧ t.value = d.raw ∧ t.neg = decide (d.raw < 0) ∧
      t.frac ≠ [] := by
  set n := d.raw.natAbs with hn
  set digits := Nat.toDigits 10 n with hdigits
  obtain ⟨whole, frac, hwhole, hwd, hfd, hlen, htext, hvalue⟩ :=
    body_split digits (fun _ => isDigit_of_mem_toDigits) Nat.toDigits_ne_nil
  rw [digitsValue_toDigits n] at hvalue
  have hfrac : frac ≠ [] := by
    intro hnil
    rw [hnil, List.length_nil] at hlen
    exact absurd hlen (by decide)
  refine ⟨⟨decide (d.raw < 0), whole, frac, hwhole, hwd, hfd, Nat.le_of_eq hlen⟩, ?_, ?_, rfl, hfrac⟩
  · rw [DecText.text, DecText.point, if_neg hfrac, toString]
    dsimp only
    rw [Nat.toList_repr, ← hdigits]
    by_cases hneg : d.raw < 0
    · rw [if_pos hneg, String.toList_append, htext, decide_eq_true hneg, if_pos rfl]
      rfl
    · rw [if_neg hneg, htext, decide_eq_false hneg, if_neg Bool.false_ne_true, List.nil_append]
  · have hv : digitsValue 10 whole * 10 ^ precision + digitsValue 10 frac * 10 ^ (precision - frac.length) =
        n := by
      rw [hlen, Nat.sub_self, Nat.pow_zero, Nat.mul_one, hvalue]
    rw [DecText.value]
    dsimp only
    rw [hv]
    by_cases hneg : d.raw < 0
    · rw [decide_eq_true hneg, if_pos rfl]
      omega
    · rw [decide_eq_false hneg, if_neg Bool.false_ne_true]
      omega

/-- `NewDecFromStr` reads back every printed decimal, and every text of the grammar as its value. -/
theorem dec_text_round_trip :
    (∀ d : Dec, newDecFromStr d.toString = .ok d) ∧
    (∀ t : DecText, newDecFromStr (String.ofList t.text) = .ok ⟨t.value⟩) := by
  refine ⟨fun d => ?_, newDecFromStr_text⟩
  obtain ⟨t, htext, hvalue, -, -⟩ := toString_eq_text d
  have hstr : d.toString = String.ofList t.text := by
    rw [← htext, String.ofList_toList]
  rw [hstr, newDecFromStr_text, hvalue]

/-- A second `-` before a printed negative decimal is read, although no text of the grammar has two
signs: `SetString` reads it, and the decimal comes back positive. -/
theorem newDecFromStr_two_signs (d : Dec) (hneg : d.raw < 0) :
    (∀ t : DecText, t.text ≠ ("-" ++ d.toString).toList) ∧
      newDecFromStr ("-" ++ d.toString) = .ok d.neg := by
  obtain ⟨t, htext, hvalue, hsign, hfrac⟩ := toString_eq_text d
  rw [decide_eq_true hneg] at hsign
  have htext' : ("-" ++ d.toString).toList = '-' :: '-' :: (t.whole ++ DecText.point t.frac) := by
    rw [String.toList_append, htext, DecText.text, hsign, if_pos rfl, List.append_assoc]
    rfl
  refine ⟨fun t' => htext' ▸ t'.text_ne_minus_minus _, ?_⟩
  -- after the stripped `-`, the text `SetString` reads starts with the second one
  have hset := setString_neg_digits_ten t.padded_ne_nil t.padded_digits
  rw [digitsValue_padded t.frac_length, ← List.cons_append, ← List.cons_append] at hset
  have hcombined := combinedOf_point (List.cons_ne_nil '-' t.whole)
    (by
      rw [List.mem_cons, not_or]
      exact ⟨by decide, dot_not_mem_of_digits t.whole_digits⟩)
    t.frac_digits t.frac_length hset
  rw [newDecFromStr_of_combinedOf true (List.cons_ne_nil _ _) (fun h => Bool.noConfusion h)
    (by rw [htext', if_pos rfl, List.singleton_append]; rfl) hcombined, if_pos rfl]
  rw [DecText.value, hsign, if_pos rfl] at hvalue
  rw [neg, ← hvalue]

theorem newDecFromStr_two_signs_one :
    (⟨-1000000000000000000⟩ : Dec).raw < 0 ∧
      (∀ t : DecText, t.text ≠ ("-" ++ Dec.toString ⟨-1000000000000000000⟩).toList) ∧
      newDecFromStr ("-" ++ Dec.toString ⟨-1000000000000000000⟩) = .ok ⟨1000000000000000000⟩ :=
  ⟨by decide, newDecFromStr_two_signs _ (by decide)⟩

end Dec

end CosmosSdk
