import CosmosSdk.Types.Coins
import CosmosSdk.Lib.GoText

/-!
# The text of coins

`ParseCoin` and `ParseCoins` (`types/coin.go`) read what `Coin.String` and `Coins.String` print: an
amount and a denomination, `reCoin` = `^([[:digit:]]+)[[:space:]]*([a-z][a-z0-9]{2,15})$`, and
coins joined by commas.  The amount is read by `NewIntFromString`, which is `big.Int.SetString` in
base `0`: a leading `0` makes the digits after it octal.

* `parseCoin_leading_zero`: an amount written with a leading `0` is read in base 8, and one with a `0`
  before an `8` or a `9` is refused.
* `parseCoin_decimal`: an amount without a leading zero is read in base 10.
* `parseCoins_toString`: `ParseCoins` reads back the text of every valid set of coins whose
  denominations all match the pattern and whose amounts fit in 255 bits.

`ParseCoin` returns its `fmt.Errorf` texts as the inner error and the panics of `NewCoin` as the
outer one.  The `%#v` rendering of the coins in the last error of `ParseCoins` prints pointers, and
is left out of its text.
-/

namespace CosmosSdk

open GoBig GoStrings

namespace SdkInt

/-- `NewIntFromString`: `SetString` in base `0`, then the check of 255 bits. -/
def newIntFromString (s : String) : Option Int :=
  match setString s 0 with
  | none => none
  | some i => if bitLen i > maxBitLen then none else some i

theorem newIntFromString_of_setString {s : String} {i : Int} (hset : setString s 0 = some i)
    (hfit : i.natAbs < 2 ^ maxBitLen) : newIntFromString s = some i := by
  rw [newIntFromString, hset]
  dsimp only
  rw [if_neg (fun h => absurd ((bitLen_gt_iff i maxBitLen).1 h) (Nat.not_le.2 hfit))]

end SdkInt

namespace Types

open Coins

/-! ### The parser -/

/-- `[[:space:]]` of Go's regular expressions: `\t \n \v \f \r` and the space. -/
def isRegexSpace (ch : Char) : Bool :=
  ch.toNat == 0x09 || ch.toNat == 0x0A || ch.toNat == 0x0B || ch.toNat == 0x0C || ch.toNat == 0x0D ||
    ch.toNat == 0x20

/-- `reCoin.FindStringSubmatch`: the amount and the denomination.  The match is unique: the amount is
the run of digits the text starts with, the spaces after it are skipped (a denomination starts with
a letter), and the rest must be a denomination. -/
def matchCoin (s : List Char) : Option (List Char × List Char) :=
  let amountStr := s.takeWhile fun ch => decide (IsDigit ch)
  let denomStr := (s.dropWhile fun ch => decide (IsDigit ch)).dropWhile isRegexSpace
  if amountStr ≠ [] ∧ validateDenom (String.ofList denomStr) = true then some (amountStr, denomStr)
  else none

/-- `ParseCoin`. -/
def parseCoin (coinStr : String) : Except Panic (Except String Coin) :=
  let coinStr := String.ofList (trimSpace coinStr.toList)
  match matchCoin coinStr.toList with
  | none => .ok (.error ("invalid coin expression: " ++ coinStr))
  | some (amountStr, denomStr) =>
    match SdkInt.newIntFromString (String.ofList amountStr) with
    | none => .ok (.error ("failed to parse coin amount: " ++ String.ofList amountStr))
    | some amount =>
      if !validateDenom (String.ofList denomStr) then
        .ok (.error "invalid denom cannot contain upper case characters or spaces: illegal characters")
      else (Coin.newCoin (String.ofList denomStr) amount).map .ok

/-- The loop of `ParseCoins`: the pieces parsed in turn, the first error returned. -/
def parseEach : List (List Char) → Except Panic (Except String Coins)
  | [] => .ok (.ok [])
  | coinStr :: coinStrs =>
    match parseCoin (String.ofList coinStr) with
    | .error p => .error p
    | .ok (.error err) => .ok (.error err)
    | .ok (.ok coin) =>
      match parseEach coinStrs with
      | .error p => .error p
      | .ok (.error err) => .ok (.error err)
      | .ok (.ok coins) => .ok (.ok (coin :: coins))

/-- `ParseCoins`: the text split at commas, each piece parsed, the coins sorted and checked. -/
def parseCoins (coinsStr : String) : Except Panic (Except String Coins) :=
  let coinsStr := trimSpace coinsStr.toList
  if byteLen coinsStr = 0 then .ok (.ok [])
  else
    match parseEach (split ',' coinsStr) with
    | .error p => .error p
    | .ok (.error err) => .ok (.error err)
    | .ok (.ok coins) =>
      -- sort coins for determinism
      let coins := Coins.sort coins
      -- validate coins before returning
      if !coins.isValid then .ok (.error "parseCoins invalid") else .ok (.ok coins)

/-! ### The characters of a coin -/

theorem toNat_of_isLower {ch : Char} (h : ch.isLower = true) : 97 ≤ ch.toNat ∧ ch.toNat ≤ 122 := by
  simp only [Char.isLower, Bool.and_eq_true, decide_eq_true_eq, UInt32.le_iff_toNat_le] at h
  exact h

theorem toNat_of_isLower_or_isDigit {ch : Char} (h : (ch.isLower || ch.isDigit) = true) :
    (97 ≤ ch.toNat ∧ ch.toNat ≤ 122) ∨ (48 ≤ ch.toNat ∧ ch.toNat ≤ 57) := by
  simp only [Char.isLower, Char.isDigit, Bool.or_eq_true, Bool.and_eq_true, decide_eq_true_eq,
    UInt32.le_iff_toNat_le] at h
  exact h

/-- A denomination that matches the pattern starts with a letter, and holds letters and digits. -/
theorem validateDenom_chars {denom : String} (h : validateDenom denom = true) :
    (∃ c cs, denom.toList = c :: cs ∧ 97 ≤ c.toNat ∧ c.toNat ≤ 122) ∧
      ∀ ch ∈ denom.toList, (97 ≤ ch.toNat ∧ ch.toNat ≤ 122) ∨ (48 ≤ ch.toNat ∧ ch.toNat ≤ 57) := by
  unfold validateDenom at h
  split at h
  · cases h
  · rename_i c cs hcs
    simp only [Bool.and_eq_true, List.all_eq_true] at h
    obtain ⟨⟨⟨hc, -⟩, -⟩, hall⟩ := h
    refine ⟨⟨c, cs, hcs, toNat_of_isLower hc⟩, ?_⟩
    rw [hcs]
    intro ch hch
    rcases List.mem_cons.1 hch with rfl | hch
    · exact Or.inl (toNat_of_isLower hc)
    · exact toNat_of_isLower_or_isDigit (hall ch hch)

/-- The characters of an amount and a denomination are printable and no comma. -/
theorem coin_chars {amountStr : List Char} {denom : String} (hdig : ∀ ch ∈ amountStr, IsDigit ch)
    (hdenom : validateDenom denom = true) :
    ∀ ch ∈ amountStr ++ denom.toList, 0x21 ≤ ch.toNat ∧ ch.toNat ≤ 0x7E ∧ ch ≠ ',' := by
  intro ch hch
  have hrange : (97 ≤ ch.toNat ∧ ch.toNat ≤ 122) ∨ (48 ≤ ch.toNat ∧ ch.toNat ≤ 57) := by
    rcases List.mem_append.1 hch with ha | hd
    · have h₀ : '0'.toNat ≤ ch.toNat := (hdig ch ha).1
      have h₉ : ch.toNat ≤ '9'.toNat := (hdig ch ha).2
      exact Or.inr ⟨h₀, h₉⟩
    · exact (validateDenom_chars hdenom).2 ch hd
  have hcomma : ch ≠ ',' := fun h => by
    rw [h] at hrange
    exact absurd hrange (by decide)
  exact ⟨by omega, by omega, hcomma⟩

/-! ### Reading one coin -/

/-- An amount of digits and a denomination are the two groups of `reCoin`. -/
theorem matchCoin_append {amountStr : List Char} {denom : String} (hne : amountStr ≠ [])
    (hdig : ∀ ch ∈ amountStr, IsDigit ch) (hdenom : validateDenom denom = true) :
    matchCoin (amountStr ++ denom.toList) = some (amountStr, denom.toList) := by
  obtain ⟨c, cs, hcs, hc⟩ := (validateDenom_chars hdenom).1
  have hdigit : decide (IsDigit c) = false := by
    rw [decide_eq_false_iff_not]
    intro h
    have h₉ : c.toNat ≤ 57 := h.2
    omega
  have hspace : isRegexSpace c = false := by
    simp only [isRegexSpace, Bool.or_eq_false_iff, beq_eq_false_iff_ne, ne_eq]
    omega
  have htake : (amountStr ++ denom.toList).takeWhile (fun ch => decide (IsDigit ch)) = amountStr := by
    rw [List.takeWhile_append_of_pos (fun ch hch => decide_eq_true (hdig ch hch)), hcs,
      List.takeWhile_cons, if_neg (by rw [hdigit]; decide), List.append_nil]
  have hdrop : ((amountStr ++ denom.toList).dropWhile fun ch => decide (IsDigit ch)).dropWhile
      isRegexSpace = denom.toList := by
    rw [List.dropWhile_append_of_pos (fun ch hch => decide_eq_true (hdig ch hch)), hcs,
      List.dropWhile_cons, if_neg (by rw [hdigit]; decide), List.dropWhile_cons,
      if_neg (by rw [hspace]; decide)]
  unfold matchCoin
  dsimp only
  rw [htake, hdrop, String.ofList_toList, if_pos ⟨hne, hdenom⟩]

/-- An amount of digits before a denomination: `ParseCoin` is what `NewIntFromString` reads. -/
theorem parseCoin_append {amountStr : List Char} {denom : String} (hne : amountStr ≠ [])
    (hdig : ∀ ch ∈ amountStr, IsDigit ch) (hdenom : validateDenom denom = true) :
    parseCoin (String.ofList amountStr ++ denom) =
      match SdkInt.newIntFromString (String.ofList amountStr) with
      | none => .ok (.error ("failed to parse coin amount: " ++ String.ofList amountStr))
      | some amount => (Coin.newCoin denom amount).map .ok := by
  have htrim : trimSpace (String.ofList amountStr ++ denom).toList = amountStr ++ denom.toList := by
    rw [String.toList_append, String.toList_ofList]
    exact trimSpace_of_forall fun ch hch =>
      isSpace_of_printable ⟨(coin_chars hdig hdenom ch hch).1, (coin_chars hdig hdenom ch hch).2.1⟩
  unfold parseCoin
  rw [htrim]
  dsimp only
  rw [String.toList_ofList, matchCoin_append hne hdig hdenom]
  dsimp only
  rw [String.ofList_toList]
  split
  · rfl
  · rw [if_neg (by rw [hdenom]; decide)]

/-- A denomination after an amount that `NewIntFromString` reads as a nonnegative value: the coin. -/
theorem parseCoin_of_newIntFromString {amountStr : List Char} {denom : String} (hne : amountStr ≠ [])
    (hdig : ∀ ch ∈ amountStr, IsDigit ch) (hdenom : validateDenom denom = true) {amount : Int}
    (hamount : SdkInt.newIntFromString (String.ofList amountStr) = some amount) (hnonneg : 0 ≤ amount) :
    parseCoin (String.ofList amountStr ++ denom) = .ok (.ok ⟨denom, amount⟩) := by
  rw [parseCoin_append hne hdig hdenom, hamount]
  dsimp only
  rw [Coin.newCoin_of_nonneg hdenom hnonneg]
  rfl

/-- A `0` before the digits of an amount makes `ParseCoin` read them in base 8, and a `0` before an `8`
or a `9` makes it refuse the amount: the amount is not read in base 10. -/
theorem parseCoin_leading_zero {denom : String} (hdenom : validateDenom denom = true) :
    (∀ ds : List Char, ds ≠ [] → (∀ ch ∈ ds, IsDigit ch ∧ digitValue ch < 8) →
      digitsValue 8 ds < 2 ^ maxBitLen →
      parseCoin (String.ofList ('0' :: ds) ++ denom) = .ok (.ok ⟨denom, digitsValue 8 ds⟩)) ∧
    (∀ (ds rest : List Char) (ch : Char), (∀ c ∈ ds, IsDigit c ∧ digitValue c < 8) → IsDigit ch →
      8 ≤ digitValue ch → (∀ c ∈ rest, IsDigit c) →
      parseCoin (String.ofList ('0' :: ds ++ ch :: rest) ++ denom) =
        .ok (.error ("failed to parse coin amount: " ++ String.ofList ('0' :: ds ++ ch :: rest)))) := by
  have hzero : IsDigit '0' := by decide
  constructor
  · intro ds hds hoct hfit
    have hdig : ∀ c ∈ '0' :: ds, IsDigit c := by
      intro c hc
      rcases List.mem_cons.1 hc with rfl | hc
      · exact hzero
      · exact (hoct c hc).1
    exact parseCoin_of_newIntFromString (List.cons_ne_nil _ _) hdig hdenom
      (SdkInt.newIntFromString_of_setString (setString_zero_octal hds hoct) (by simpa using hfit))
      (Int.natCast_nonneg _)
  · intro ds rest ch hoct hch _ hrest
    have hdig : ∀ c ∈ '0' :: ds ++ ch :: rest, IsDigit c := by
      intro c hc
      rcases List.mem_append.1 hc with hc | hc
      · rcases List.mem_cons.1 hc with rfl | hc
        · exact hzero
        · exact (hoct c hc).1
      · rcases List.mem_cons.1 hc with rfl | hc
        · exact hch
        · exact hrest c hc
    have hnone : SdkInt.newIntFromString (String.ofList ('0' :: ds ++ ch :: rest)) = none := by
      rw [SdkInt.newIntFromString, setString_zero_eight hoct hch (by assumption)]
    rw [parseCoin_append (List.append_ne_nil_of_left_ne_nil (List.cons_ne_nil _ _) _) hdig hdenom, hnone]

theorem parseCoin_leading_zero_atom :
    validateDenom "atom" = true ∧
      parseCoin (String.ofList ['0', '1', '0'] ++ "atom") = .ok (.ok ⟨"atom", 8⟩) ∧
      parseCoin (String.ofList ['0', '8'] ++ "atom") =
        .ok (.error ("failed to parse coin amount: " ++ String.ofList ['0', '8'])) := by
  have h := parseCoin_leading_zero (by decide : validateDenom "atom" = true)
  refine ⟨by decide, ?_, ?_⟩
  · -- bounded quantifiers over a list of characters are proved pointwise: with Batteries in scope
    -- their decision procedure ranges over every character
    have hoct : ∀ c ∈ ['1', '0'], IsDigit c ∧ digitValue c < 8 := by
      intro c hc
      simp only [List.mem_cons, List.not_mem_nil, or_false] at hc
      rcases hc with rfl | rfl <;> decide
    exact h.1 ['1', '0'] (List.cons_ne_nil _ _) hoct (by decide)
  · exact h.2 [] [] '8' (fun _ hc => absurd hc List.not_mem_nil) (by decide) (by decide)
      (fun _ hc => absurd hc List.not_mem_nil)

/-- An amount without a leading zero is read in base 10. -/
theorem parseCoin_decimal {ds : List Char} {denom : String} (hds : ds ≠ [])
    (hdig : ∀ ch ∈ ds, IsDigit ch) (hhead : ds.head? ≠ some '0') (hdenom : validateDenom denom = true)
    (hfit : digitsValue 10 ds < 2 ^ maxBitLen) :
    parseCoin (String.ofList ds ++ denom) = .ok (.ok ⟨denom, digitsValue 10 ds⟩) := by
  have hset : setString (String.ofList ds) 0 = some ↑(digitsValue 10 ds) := by
    rw [setString, String.toList_ofList,
      (intScan_digits hds hdig (scanBase_zero_of_head? hhead)).1]
  exact parseCoin_of_newIntFromString hds hdig hdenom
    (SdkInt.newIntFromString_of_setString hset (by simpa using hfit)) (Int.natCast_nonneg _)

/-! ### Reading printed coins back -/

/-- The text of a positive amount: decimal digits that do not start with `0`. -/
theorem repr_eq_ofList {amount : Int} (hpos : 0 < amount) :
    ∃ ds : List Char, amount.repr = String.ofList ds ∧ ds ≠ [] ∧ (∀ ch ∈ ds, IsDigit ch) ∧
      ds.head? ≠ some '0' ∧ digitsValue 10 ds = amount := by
  obtain ⟨n, rfl⟩ := Int.eq_ofNat_of_zero_le (Int.le_of_lt hpos)
  refine ⟨Nat.toDigits 10 n, ?_, Nat.toDigits_ne_nil, fun _ => isDigit_of_mem_toDigits,
    head_toDigits_ne_zero (by omega), by rw [digitsValue_toDigits]⟩
  show Nat.repr n = _
  rw [← Nat.toList_repr, String.ofList_toList]

theorem toString_ne_nil {coin : Coin} (hpos : 0 < coin.amount) : coin.toString.toList ≠ [] := by
  obtain ⟨ds, hrepr, hds, -⟩ := repr_eq_ofList hpos
  rw [Coin.toString, hrepr, String.toList_append, String.toList_ofList]
  exact List.append_ne_nil_of_left_ne_nil hds _

/-- `ParseCoin` reads back the text of a coin with a positive amount of at most 255 bits and a
denomination that matches the pattern. -/
theorem parseCoin_toString {coin : Coin} (hpos : 0 < coin.amount) (hdenom : validateDenom coin.denom = true)
    (hfit : coin.amount.natAbs < 2 ^ maxBitLen) : parseCoin coin.toString = .ok (.ok coin) := by
  obtain ⟨ds, hrepr, hds, hdig, hhead, hvalue⟩ := repr_eq_ofList hpos
  rw [← hvalue] at hfit
  rw [Coin.toString, hrepr, parseCoin_decimal hds hdig hhead hdenom (by simpa using hfit), hvalue]

/-- The pieces of a printed set of coins are the texts of its coins. -/
theorem parseEach_map_toString {coins : Coins} (hpos : ∀ coin ∈ coins, 0 < coin.amount)
    (hdenoms : denomsValid coins = true) (hfit : ∀ coin ∈ coins, coin.amount.natAbs < 2 ^ maxBitLen) :
    parseEach (coins.map fun coin => coin.toString.toList) = .ok (.ok coins) := by
  induction coins with
  | nil => rfl
  | cons coin coins ih =>
    have hdenom := denomsValid_iff.1 hdenoms
    rw [List.map_cons, parseEach, String.ofList_toList,
      parseCoin_toString (hpos coin List.mem_cons_self) (hdenom coin List.mem_cons_self)
        (hfit coin List.mem_cons_self)]
    dsimp only
    rw [ih (fun c hc => hpos c (List.mem_cons_of_mem _ hc))
      (denomsValid_iff.2 fun c hc => hdenom c (List.mem_cons_of_mem _ hc))
      (fun c hc => hfit c (List.mem_cons_of_mem _ hc))]

/-- The characters of the text of a coin with a positive amount and a denomination that matches the
pattern are printable and no comma. -/
theorem toString_chars {coin : Coin} (hpos : 0 < coin.amount) (hdenom : validateDenom coin.denom = true) :
    ∀ ch ∈ coin.toString.toList, 0x21 ≤ ch.toNat ∧ ch.toNat ≤ 0x7E ∧ ch ≠ ',' := by
  obtain ⟨ds, hrepr, -, hdig, -, -⟩ := repr_eq_ofList hpos
  rw [Coin.toString, hrepr, String.toList_append, String.toList_ofList]
  exact coin_chars hdig hdenom

/-- `ParseCoins` reads back the text of every valid set of coins whose denominations all match the
pattern and whose amounts fit in 255 bits. -/
theorem parseCoins_toString {coins : Coins} (hvalid : coins.isValid = true) (hdenoms : denomsValid coins = true)
    (hfit : ∀ coin ∈ coins, coin.amount.natAbs < 2 ^ maxBitLen) :
    parseCoins coins.toString = .ok (.ok coins) := by
  have hpos := isValid_pos hvalid
  have hdenom := denomsValid_iff.1 hdenoms
  set pieces := coins.map fun coin => coin.toString.toList with hpieces
  have htext : coins.toString.toList = [','].intercalate pieces := by
    rw [Coins.toString, String.toList_intercalate, List.map_map]
    rfl
  have hchars : ∀ piece ∈ pieces, ∀ ch ∈ piece, 0x21 ≤ ch.toNat ∧ ch.toNat ≤ 0x7E ∧ ch ≠ ',' := by
    intro piece hpiece
    obtain ⟨coin, hcoin, rfl⟩ := List.mem_map.1 hpiece
    exact toString_chars (hpos coin hcoin) (hdenom coin hcoin)
  have htrim : trimSpace coins.toString.toList = [','].intercalate pieces := by
    rw [htext]
    refine trimSpace_of_forall fun ch hch => ?_
    rcases mem_intercalate hch with rfl | ⟨piece, hpiece, hch⟩
    · rfl
    · exact isSpace_of_printable ⟨(hchars piece hpiece ch hch).1, (hchars piece hpiece ch hch).2.1⟩
  have hsorted : coins.Pairwise fun coin coinB => decide (coin.denom ≤ coinB.denom) = true :=
    (isValid_sorted hvalid).imp fun hlt => decide_eq_true (le_of_lt hlt)
  unfold parseCoins
  rw [htrim]
  dsimp only
  cases coins with
  | nil => rfl
  | cons coin coins' =>
    have hne : pieces ≠ [] := by rw [hpieces, List.map_cons]; exact List.cons_ne_nil _ _
    have hfirst : [','].intercalate pieces ≠ [] := by
      rw [hpieces, List.map_cons]
      exact intercalate_ne_nil (toString_ne_nil (hpos coin List.mem_cons_self))
    rw [if_neg (byteLen_ne_zero hfirst),
      split_intercalate hne fun piece hpiece hcomma => (hchars piece hpiece ',' hcomma).2.2 rfl,
      hpieces, parseEach_map_toString hpos hdenoms hfit]
    dsimp only
    rw [Coins.sort, List.mergeSort_of_pairwise hsorted, if_neg (by rw [hvalid]; decide)]

theorem parseCoins_toString_two :
    Coins.isValid [⟨"atom", 8⟩, ⟨"stake", 10⟩] = true ∧ denomsValid [⟨"atom", 8⟩, ⟨"stake", 10⟩] = true ∧
      (∀ coin ∈ ([⟨"atom", 8⟩, ⟨"stake", 10⟩] : Coins), coin.amount.natAbs < 2 ^ maxBitLen) ∧
      parseCoins (Coins.toString [⟨"atom", 8⟩, ⟨"stake", 10⟩]) = .ok (.ok [⟨"atom", 8⟩, ⟨"stake", 10⟩]) := by
  have hvalid : Coins.isValid [⟨"atom", 8⟩, ⟨"stake", 10⟩] = true := by decide +kernel
  have hdenoms : denomsValid [⟨"atom", 8⟩, ⟨"stake", 10⟩] = true := by decide +kernel
  have hfit : ∀ coin ∈ ([⟨"atom", 8⟩, ⟨"stake", 10⟩] : Coins), coin.amount.natAbs < 2 ^ maxBitLen := by
    decide
  exact ⟨hvalid, hdenoms, hfit, parseCoins_toString hvalid hdenoms hfit⟩

end Types

end CosmosSdk
