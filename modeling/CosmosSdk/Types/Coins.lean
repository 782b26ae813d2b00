import CosmosSdk.Types.Decimal
import CosmosSdk.Lib.StateExcept
import Mathlib.Data.List.Sort
import Mathlib.Data.String.Basic

/-!
# Coins

`sdk.Coin` and `sdk.Coins` (`types/coin.go`).  A set of coins is a list, sorted by denomination when
valid.  `Coins.safeAdd` merges two lists by denomination, adds the amounts of a denomination found
in both (`Int.Add`, which panics past 255 bits) and drops the coins that come out zero; `SafeSub`
adds the negated coins.  `AmountOf` is a binary search, after a check of the denomination that panics.

What a set of coins holds of a denomination is `Coins.amount`, the sum of the amounts listed under it.
Addition adds it and subtraction subtracts it, whatever the order of the lists (`safeAdd_amount`,
`safeSub_amount`).  The order matters for the rest: the sum of two sorted lists is sorted, and holds
no zero coin (`safeAdd_sorted`); it is computed without panic when no denomination overflows
(`safeAdd_ok`); and on a sorted list `AmountOf` finds the amount (`amountOfSearch_eq_amount`).
-/

namespace CosmosSdk.Types

/-- `sdk.Coin`. -/
structure Coin where
  denom : String
  amount : Int
  deriving DecidableEq

/-- `sdk.Coins`. -/
abbrev Coins := List Coin

/-- `validateDenom`: the denomination matches `[a-z][a-z0-9]{2,15}`. -/
def validateDenom (denom : String) : Bool :=
  match denom.toList with
  | [] => false
  | c :: cs => c.isLower && 2 ≤ cs.length && cs.length ≤ 15 && cs.all fun c => c.isLower || c.isDigit

namespace Coin

/-- `Coin.IsZero`. -/
def isZero (coin : Coin) : Bool := coin.amount == 0

/-- `Coin.IsPositive`. -/
def isPositive (coin : Coin) : Bool := decide (0 < coin.amount)

/-- `Coin.IsNegative`. -/
def isNegative (coin : Coin) : Bool := decide (coin.amount < 0)

/-- The panic of `Coin.Add` and `Coin.IsEqual` on two denominations. -/
def denomPanic (denom denomB : String) : Panic :=
  .other ("invalid coin denominations; " ++ denom ++ ", " ++ denomB)

/-- `Coin.Add`. -/
def add (coin coinB : Coin) : Except Panic Coin :=
  if coin.denom ≠ coinB.denom then throw (denomPanic coin.denom coinB.denom)
  else do
    let amount ← SdkInt.add coin.amount coinB.amount
    pure ⟨coin.denom, amount⟩

/-- `Coin.IsEqual`. -/
def isEqual (coin other : Coin) : Except Panic Bool :=
  if coin.denom ≠ other.denom then throw (denomPanic coin.denom other.denom)
  else pure (coin.amount == other.amount)

/-- `Coin.String`. -/
def toString (coin : Coin) : String := coin.amount.repr ++ coin.denom

/-- `NewCoin`: `mustValidateDenom`, then a check that the amount is not negative. -/
def newCoin (denom : String) (amount : Int) : Except Panic Coin :=
  if !validateDenom denom then throw (.other "illegal characters")
  else if amount < 0 then throw (.other ("negative coin amount: " ++ amount.repr))
  else pure ⟨denom, amount⟩

end Coin

namespace Coins

/-- `Coins.String`: the coins, joined by commas. -/
def toString (coins : Coins) : String := ",".intercalate (coins.map Coin.toString)

/-- The loop of `IsValid` past the first coin: each coin is in lower case, above the one before, and
positive.  The code's `strings.ToLower` is `String.toLower` here, which lowers the ASCII letters only:
a later denomination with a capital letter outside ASCII passes the lower-case check here and fails
it in the code. -/
def isValidAfter : String → Coins → Bool
  | _, [] => true
  | lowDenom, coin :: coins =>
    coin.denom.toLower == coin.denom && decide (lowDenom < coin.denom) && coin.isPositive &&
      isValidAfter coin.denom coins

/-- `Coins.IsValid`: its cases of one coin and of more, which checks the first coin as the case of one
does, together.  Only the first denomination is checked against the pattern of `validateDenom`. -/
def isValid : Coins → Bool
  | [] => true
  | coin :: coins => validateDenom coin.denom && coin.isPositive && isValidAfter coin.denom coins

/-- `removeZeroCoins`. -/
def removeZeroCoins (coins : Coins) : Coins := coins.filter fun coin => !coin.isZero

/-- `Coins.safeAdd`: the two lists merged by denomination, the amounts of a denomination in both added,
and the coins that are zero dropped. -/
def safeAdd : Coins → Coins → Except Panic Coins
  | [], coinsB => pure (removeZeroCoins coinsB)
  | coins, [] => pure (removeZeroCoins coins)
  | coinA :: coins, coinB :: coinsB =>
    if coinA.denom < coinB.denom then do
      let sum ← safeAdd coins (coinB :: coinsB)
      pure (if coinA.isZero then sum else coinA :: sum)
    else if coinA.denom = coinB.denom then do
      let res ← coinA.add coinB
      let sum ← safeAdd coins coinsB
      pure (if res.isZero then sum else res :: sum)
    else do
      let sum ← safeAdd (coinA :: coins) coinsB
      pure (if coinB.isZero then sum else coinB :: sum)
termination_by coins coinsB => coins.length + coinsB.length

/-- `Coins.Add`. -/
def add (coins coinsB : Coins) : Except Panic Coins := coins.safeAdd coinsB

/-- `Coins.negative`. -/
def negative (coins : Coins) : Coins := coins.map fun coin => ⟨coin.denom, -coin.amount⟩

/-- `Coins.IsAnyNegative`. -/
def isAnyNegative (coins : Coins) : Bool := coins.any Coin.isNegative

/-- `Coins.IsAllPositive`. -/
def isAllPositive (coins : Coins) : Bool := !coins.isEmpty && coins.all Coin.isPositive

/-- `Coins.SafeSub`. -/
def safeSub (coins coinsB : Coins) : Except Panic (Coins × Bool) := do
  let diff ← coins.safeAdd coinsB.negative
  pure (diff, diff.isAnyNegative)

/-- `Coins.IsAllGTE`: nothing of the difference is negative. -/
def isAllGTE (coins coinsB : Coins) : Except Panic Bool := do
  let (diff, _) ← coins.safeSub coinsB
  if diff.length = 0 then return true
  return !diff.isAnyNegative

/-- `Coins.Sub`. -/
def sub (coins coinsB : Coins) : Except Panic Coins := do
  let (diff, hasNeg) ← coins.safeSub coinsB
  if hasNeg then throw (.other "negative coin amount")
  pure diff

/-- `Coins.Sort`, by denomination. -/
def sort (coins : Coins) : Coins := coins.mergeSort fun coin coinB => decide (coin.denom ≤ coinB.denom)

/-- The loop of `Coins.IsEqual` over the sorted lists. -/
def allEqual : Coins → Coins → Except Panic Bool
  | coin :: coins, coinB :: coinsB => do
    if !(← coin.isEqual coinB) then return false
    allEqual coins coinsB
  | _, _ => pure true

/-- `Coins.IsEqual`. -/
def isEqual (coins coinsB : Coins) : Except Panic Bool :=
  if coins.length ≠ coinsB.length then pure false else allEqual coins.sort coinsB.sort

/-- The binary search of `Coins.AmountOf`. -/
def amountOfSearch (coins : Coins) (denom : String) : Int :=
  match h : coins with
  | [] => 0
  | [coin] => if coin.denom = denom then coin.amount else 0
  | _ :: _ :: _ =>
    let coin := coins.get ⟨coins.length / 2, by rw [h]; simp; omega⟩
    if denom < coin.denom then amountOfSearch (coins.take (coins.length / 2)) denom
    else if denom = coin.denom then coin.amount
    else amountOfSearch (coins.drop (coins.length / 2 + 1)) denom
termination_by coins.length
decreasing_by
  all_goals simp only [h, List.length_cons, List.length_take, List.length_drop]
  all_goals omega

/-- `Coins.AmountOf`: `mustValidateDenom`, then the binary search. -/
def amountOf (coins : Coins) (denom : String) : Except Panic Int :=
  if !validateDenom denom then throw (.other "illegal characters") else pure (amountOfSearch coins denom)

/-! ### What a set of coins holds of a denomination -/

/-- What `coins` holds of `denom`: the sum of the amounts listed under it. -/
def amount (coins : Coins) (denom : String) : Int :=
  ((coins.filter fun coin => coin.denom = denom).map Coin.amount).sum

@[simp] theorem amount_nil (denom : String) : amount [] denom = 0 := rfl

theorem amount_cons (coin : Coin) (coins : Coins) (denom : String) :
    amount (coin :: coins) denom =
      (if coin.denom = denom then coin.amount else 0) + amount coins denom := by
  by_cases h : coin.denom = denom <;> simp [amount, h]

/-- A coin that is dropped when zero counts for nothing. -/
theorem amount_ite_cons {zero : Bool} {coin : Coin} (hzero : zero = true → coin.amount = 0)
    (coins : Coins) (denom : String) :
    amount (if zero then coins else coin :: coins) denom =
      (if coin.denom = denom then coin.amount else 0) + amount coins denom := by
  cases zero with
  | false => exact amount_cons coin coins denom
  | true => simp [hzero rfl]

theorem removeZeroCoins_cons (coin : Coin) (coins : Coins) :
    removeZeroCoins (coin :: coins) =
      if coin.isZero then removeZeroCoins coins else coin :: removeZeroCoins coins := by
  cases h : coin.isZero <;> simp [removeZeroCoins, h]

@[simp] theorem amount_removeZeroCoins (coins : Coins) (denom : String) :
    amount (removeZeroCoins coins) denom = amount coins denom := by
  induction coins with
  | nil => rfl
  | cons coin coins ih =>
    rw [removeZeroCoins_cons, amount_ite_cons (by simp [Coin.isZero]), ih, amount_cons]

@[simp] theorem amount_negative (coins : Coins) (denom : String) :
    amount coins.negative denom = -amount coins denom := by
  induction coins with
  | nil => rfl
  | cons coin coins ih =>
    simp only [negative, List.map_cons] at ih ⊢
    rw [amount_cons, amount_cons, ih]
    by_cases h : coin.denom = denom <;> simp [h]
    omega

end Coins

namespace Coin

theorem add_eq_ok {coin coinB res : Coin} (h : coin.add coinB = .ok res) :
    coin.denom = coinB.denom ∧ res = ⟨coin.denom, coin.amount + coinB.amount⟩ := by
  unfold add at h
  split at h
  · cases h
  · rename_i hdenom
    obtain ⟨amount, hamount, h⟩ := StateExcept.except_bind_eq_ok.1 h
    cases h
    exact ⟨not_not.1 hdenom, by rw [SdkInt.add_eq_ok hamount]⟩

theorem add_of_natAbs_lt {coin coinB : Coin} (hdenom : coin.denom = coinB.denom)
    (hfit : (coin.amount + coinB.amount).natAbs < 2 ^ maxBitLen) :
    coin.add coinB = .ok ⟨coin.denom, coin.amount + coinB.amount⟩ := by
  rw [add, if_neg (not_not.2 hdenom), SdkInt.add_of_natAbs_lt hfit]
  rfl

theorem eq_of_isEqual {coin coinB : Coin} (h : coin.isEqual coinB = .ok true) : coin = coinB := by
  unfold isEqual at h
  split at h
  · cases h
  · rename_i hdenom
    have hamount : coin.amount = coinB.amount := beq_iff_eq.1 (Except.ok.inj h)
    cases coin
    cases coinB
    cases not_not.1 hdenom
    cases hamount
    rfl

theorem newCoin_eq_ok {denom : String} {amount : Int} {coin : Coin}
    (h : newCoin denom amount = .ok coin) : coin = ⟨denom, amount⟩ ∧ 0 ≤ amount := by
  unfold newCoin at h
  split at h
  · cases h
  · split at h
    · cases h
    · rename_i hneg
      cases h
      exact ⟨rfl, not_lt.1 hneg⟩

theorem newCoin_of_nonneg {denom : String} {amount : Int} (hdenom : validateDenom denom = true)
    (hamount : 0 ≤ amount) : newCoin denom amount = .ok ⟨denom, amount⟩ := by
  rw [newCoin, if_neg (by simp [hdenom]), if_neg (not_lt.2 hamount)]
  rfl

/-- Characters in lower case or digits are kept by `Char.toLower`. -/
theorem toLower_of_isLower_or_isDigit {c : Char} (h : (c.isLower || c.isDigit) = true) :
    c.toLower = c := by
  unfold Char.toLower
  rw [dif_neg]
  simp only [Char.isLower, Char.isDigit, Bool.or_eq_true, Bool.and_eq_true, decide_eq_true_eq] at h
  intro hc
  rcases h with ⟨h1, h2⟩ | ⟨h1, h2⟩ <;> simp [UInt32.le_iff_toNat_le] at * <;> omega

/-- A denomination that matches the pattern is in lower case. -/
theorem toLower_of_validateDenom {denom : String} (h : validateDenom denom = true) :
    denom.toLower = denom := by
  rw [String.ext_iff, String.toLower, String.toList_map]
  unfold validateDenom at h
  split at h
  · cases h
  · rename_i c cs hcs
    simp only [Bool.and_eq_true, List.all_eq_true] at h
    obtain ⟨⟨⟨hc, -⟩, -⟩, hall⟩ := h
    rw [hcs, List.map_cons, toLower_of_isLower_or_isDigit (by simp [hc])]
    congr 1
    calc cs.map Char.toLower = cs.map id :=
          List.map_congr_left fun c' hc' => toLower_of_isLower_or_isDigit (hall c' hc')
      _ = cs := List.map_id cs

end Coin

namespace Coins

open StateExcept

/-! ### The merge behind `safeAdd` -/

/-- The sum `safeAdd` computes when no addition overflows: the two lists merged by denomination, the
amounts of a denomination in both added, and the zero coins dropped. -/
def mergeAdd : Coins → Coins → Coins
  | [], coinsB => removeZeroCoins coinsB
  | coins, [] => removeZeroCoins coins
  | coinA :: coins, coinB :: coinsB =>
    if coinA.denom < coinB.denom then
      if coinA.isZero then mergeAdd coins (coinB :: coinsB)
      else coinA :: mergeAdd coins (coinB :: coinsB)
    else if coinA.denom = coinB.denom then
      if (⟨coinA.denom, coinA.amount + coinB.amount⟩ : Coin).isZero then mergeAdd coins coinsB
      else ⟨coinA.denom, coinA.amount + coinB.amount⟩ :: mergeAdd coins coinsB
    else if coinB.isZero then mergeAdd (coinA :: coins) coinsB
    else coinB :: mergeAdd (coinA :: coins) coinsB
termination_by coins coinsB => coins.length + coinsB.length

/-- What `safeAdd` returns, when it returns, is the merge: each step of its loop is one of the merge. -/
theorem safeAdd_eq_mergeAdd {coins coinsB sum : Coins} (h : safeAdd coins coinsB = .ok sum) :
    sum = mergeAdd coins coinsB := by
  induction coins, coinsB using safeAdd.induct generalizing sum with
  | case1 coinsB =>
    rw [safeAdd] at h
    cases h
    rw [mergeAdd]
  | case2 coins hne =>
    obtain ⟨coin, coins, rfl⟩ := List.exists_cons_of_ne_nil hne
    rw [safeAdd] at h
    · cases h
      rw [mergeAdd]
      exact hne
    · exact hne
  | case3 coinA coins coinB coinsB hlt ih =>
    rw [safeAdd, if_pos hlt] at h
    obtain ⟨rest, hrest, h⟩ := except_bind_eq_ok.1 h
    cases h
    rw [mergeAdd, if_pos hlt, ← ih hrest]
  | case4 coinA coins coinB coinsB hlt heq ih =>
    rw [safeAdd, if_neg hlt, if_pos heq] at h
    obtain ⟨res, hres, h⟩ := except_bind_eq_ok.1 h
    obtain ⟨rest, hrest, h⟩ := except_bind_eq_ok.1 h
    cases h
    obtain ⟨-, rfl⟩ := Coin.add_eq_ok hres
    rw [mergeAdd, if_neg hlt, if_pos heq, ← ih hrest]
  | case5 coinA coins coinB coinsB hlt hne ih =>
    rw [safeAdd, if_neg hlt, if_neg hne] at h
    obtain ⟨rest, hrest, h⟩ := except_bind_eq_ok.1 h
    cases h
    rw [mergeAdd, if_neg hlt, if_neg hne, ← ih hrest]

/-- The merge adds what the two sets hold of each denomination, in whatever order they are listed. -/
theorem mergeAdd_amount (coins coinsB : Coins) (denom : String) :
    amount (mergeAdd coins coinsB) denom = amount coins denom + amount coinsB denom := by
  -- the merge recurses as `safeAdd` does
  induction coins, coinsB using safeAdd.induct with
  | case1 coinsB =>
    rw [mergeAdd]
    simp
  | case2 coins hne =>
    rw [mergeAdd]
    · simp
    · exact hne
  | case3 coinA coins coinB coinsB hlt ih =>
    rw [mergeAdd, if_pos hlt, amount_ite_cons (by simp [Coin.isZero]), ih, amount_cons coinA]
    omega
  | case4 coinA coins coinB coinsB hlt heq ih =>
    rw [mergeAdd, if_neg hlt, if_pos heq, amount_ite_cons (by simp [Coin.isZero]), ih,
      amount_cons coinA, amount_cons coinB, heq]
    by_cases hdenom : coinB.denom = denom <;> simp [hdenom]
    omega
  | case5 coinA coins coinB coinsB hlt hne ih =>
    rw [mergeAdd, if_neg hlt, if_neg hne, amount_ite_cons (by simp [Coin.isZero]), ih,
      amount_cons coinB]
    omega

/-- Addition adds what the two sets hold of each denomination, in whatever order they are listed. -/
theorem safeAdd_amount {coins coinsB sum : Coins} (h : safeAdd coins coinsB = .ok sum)
    (denom : String) : amount sum denom = amount coins denom + amount coinsB denom := by
  rw [safeAdd_eq_mergeAdd h]
  exact mergeAdd_amount coins coinsB denom

theorem add_amount {coins coinsB sum : Coins} (h : coins.add coinsB = .ok sum) (denom : String) :
    amount sum denom = amount coins denom + amount coinsB denom :=
  safeAdd_amount h denom

/-- Subtraction subtracts what the second set holds of each denomination. -/
theorem safeSub_amount {coins coinsB diff : Coins} {hasNeg : Bool}
    (h : coins.safeSub coinsB = .ok (diff, hasNeg)) (denom : String) :
    amount diff denom = amount coins denom - amount coinsB denom ∧ hasNeg = diff.isAnyNegative := by
  obtain ⟨sum, hsum, h⟩ := except_bind_eq_ok.1 h
  cases h
  rw [safeAdd_amount hsum, amount_negative]
  exact ⟨by omega, rfl⟩

theorem sub_amount {coins coinsB diff : Coins} (h : coins.sub coinsB = .ok diff) (denom : String) :
    amount diff denom = amount coins denom - amount coinsB denom ∧ diff.isAnyNegative = false := by
  obtain ⟨⟨sum, hasNeg⟩, hsub, h⟩ := except_bind_eq_ok.1 h
  obtain ⟨hamount, rfl⟩ := safeSub_amount hsub denom
  cases hneg : sum.isAnyNegative
  · rw [hneg] at h
    cases h
    exact ⟨hamount, hneg⟩
  · rw [hneg] at h
    cases h

@[simp] theorem amount_append (coins coinsB : Coins) (denom : String) :
    amount (coins ++ coinsB) denom = amount coins denom + amount coinsB denom := by
  simp [amount, List.filter_append]

theorem amount_nonneg {coins : Coins} {denom : String} (h : ∀ coin ∈ coins, 0 ≤ coin.amount) :
    0 ≤ amount coins denom := by
  unfold amount
  exact List.sum_nonneg fun x hx => by
    obtain ⟨coin, hc, rfl⟩ := List.mem_map.1 hx
    exact h coin (List.mem_of_mem_filter hc)

theorem amount_eq_zero {coins : Coins} {denom : String} (h : ∀ coin ∈ coins, coin.denom ≠ denom) :
    amount coins denom = 0 := by
  rw [amount, List.filter_eq_nil_iff.2 fun coin hc => by simpa using h coin hc]
  rfl

/-- A set of coins holds something of a denomination only where one of its coins has it. -/
theorem exists_mem_of_amount_ne_zero {coins : Coins} {denom : String} (h : amount coins denom ≠ 0) :
    ∃ coin ∈ coins, coin.denom = denom := by
  by_contra hnone
  exact h (amount_eq_zero fun coin hc hdenom => hnone ⟨coin, hc, hdenom⟩)

/-! ### Sorted sets of coins -/

/-- The denominations strictly increase along the list: the order `IsValid` checks, which `safeAdd`
keeps. -/
def Sorted (coins : Coins) : Prop := coins.Pairwise fun coin coinB => coin.denom < coinB.denom

instance : DecidablePred Sorted := fun coins => inferInstanceAs (Decidable (List.Pairwise _ coins))

theorem sorted_cons {coin : Coin} {coins : Coins} :
    Sorted (coin :: coins) ↔ (∀ coinB ∈ coins, coin.denom < coinB.denom) ∧ Sorted coins :=
  List.pairwise_cons

theorem Sorted.sublist {coins coinsB : Coins} (h : Sorted coinsB) (hsub : coins.Sublist coinsB) :
    Sorted coins :=
  List.Pairwise.sublist hsub h

theorem Sorted.amount_head {coin : Coin} {coins : Coins} (h : Sorted (coin :: coins)) :
    amount coins coin.denom = 0 :=
  amount_eq_zero fun _ hb => (ne_of_lt (sorted_cons.1 h |>.1 _ hb)).symm

/-- In a sorted list each coin is all that the list holds of its denomination. -/
theorem Sorted.amount_of_mem {coins : Coins} {coin : Coin} (h : Sorted coins) (hc : coin ∈ coins) :
    amount coins coin.denom = coin.amount := by
  induction coins with
  | nil => cases hc
  | cons head coins ih =>
    obtain ⟨hhead, htail⟩ := sorted_cons.1 h
    rw [amount_cons]
    rcases List.mem_cons.1 hc with rfl | hc
    · rw [if_pos rfl, h.amount_head, add_zero]
    · rw [if_neg (ne_of_lt (hhead coin hc)), ih htail hc, zero_add]

/-- Each coin of a sorted positive list mapped to an amount computed from its denomination and amount:
the result holds of a denomination that amount at what the list holds, and nothing where it holds
nothing. -/
theorem Sorted.amount_map {coins : Coins} (h : Sorted coins) (hpos : ∀ coin ∈ coins, 0 < coin.amount)
    (g : String → Int → Int) (denom : String) :
    amount (coins.map fun coin => ⟨coin.denom, g coin.denom coin.amount⟩) denom =
      if amount coins denom = 0 then 0 else g denom (amount coins denom) := by
  induction coins with
  | nil => simp
  | cons coin coins ih =>
    obtain ⟨-, htail⟩ := sorted_cons.1 h
    have hcoin : 0 < coin.amount := hpos coin List.mem_cons_self
    rw [List.map_cons, amount_cons, amount_cons, ih htail fun c hc => hpos c (List.mem_cons_of_mem _ hc)]
    by_cases hdenom : coin.denom = denom
    · subst hdenom
      rw [h.amount_head, if_pos rfl, if_pos rfl, if_pos rfl, add_zero, add_zero, if_neg hcoin.ne']
    · simp [hdenom]

/-- A sorted list holds nothing of a denomination below its first. -/
theorem Sorted.amount_of_lt_head {coin : Coin} {coins : Coins} (h : Sorted (coin :: coins))
    {denom : String} (hlt : denom < coin.denom) : amount (coin :: coins) denom = 0 := by
  refine amount_eq_zero fun coinB hc hdenom => ?_
  rcases List.mem_cons.1 hc with rfl | hc
  · exact (ne_of_lt hlt) hdenom.symm
  · exact (ne_of_lt (hlt.trans (sorted_cons.1 h |>.1 coinB hc))) hdenom.symm

/-- Sorted lists without zero coins that hold the same of every denomination are equal: such a list
is the canonical form of what it holds. -/
theorem Sorted.eq_of_amount_eq {coins coinsB : Coins} (hs : Sorted coins) (hsB : Sorted coinsB)
    (hne : ∀ coin ∈ coins, coin.amount ≠ 0) (hneB : ∀ coin ∈ coinsB, coin.amount ≠ 0)
    (h : ∀ denom, amount coins denom = amount coinsB denom) : coins = coinsB := by
  induction coins generalizing coinsB with
  | nil =>
    cases coinsB with
    | nil => rfl
    | cons coinB coinsB =>
      have hB := h coinB.denom
      rw [amount_nil, hsB.amount_of_mem List.mem_cons_self] at hB
      exact absurd hB.symm (hneB coinB List.mem_cons_self)
  | cons coin coins ih =>
    cases coinsB with
    | nil =>
      have hA := h coin.denom
      rw [amount_nil, hs.amount_of_mem List.mem_cons_self] at hA
      exact absurd hA (hne coin List.mem_cons_self)
    | cons coinB coinsB =>
      have hA := h coin.denom
      have hB := h coinB.denom
      rw [hs.amount_of_mem List.mem_cons_self] at hA
      rw [hsB.amount_of_mem List.mem_cons_self] at hB
      -- the first coins carry the least denomination either list holds, so they are the same
      have hdenom : coin.denom = coinB.denom := by
        rcases lt_trichotomy coin.denom coinB.denom with hlt | heq | hgt
        · rw [hsB.amount_of_lt_head hlt] at hA
          exact absurd hA (hne coin List.mem_cons_self)
        · exact heq
        · rw [hs.amount_of_lt_head hgt] at hB
          exact absurd hB.symm (hneB coinB List.mem_cons_self)
      have hamount : coin.amount = coinB.amount := by
        rw [hA, hdenom, hsB.amount_of_mem List.mem_cons_self]
      have hcoin : coin = coinB := by
        cases coin
        cases coinB
        simp only at hdenom hamount
        rw [hdenom, hamount]
      subst hcoin
      have hrest : coins = coinsB := by
        refine ih (sorted_cons.1 hs).2 (sorted_cons.1 hsB).2
          (fun c hc => hne c (List.mem_cons_of_mem _ hc)) (fun c hc => hneB c (List.mem_cons_of_mem _ hc))
          fun denom => ?_
        have hd := h denom
        rw [amount_cons, amount_cons] at hd
        omega
      rw [hrest]

/-- A sorted list split at one of its coins holds a denomination below that coin in the part before
it, and one above it in the part after. -/
theorem Sorted.amount_split {l r : Coins} {coin : Coin} (h : Sorted (l ++ coin :: r))
    (denom : String) :
    amount (l ++ coin :: r) denom =
      if denom < coin.denom then amount l denom
      else if denom = coin.denom then coin.amount else amount r denom := by
  obtain ⟨-, hr, hlr⟩ := List.pairwise_append.1 h
  have hbelow : ∀ x ∈ l, x.denom < coin.denom := fun x hx => hlr x hx coin List.mem_cons_self
  have habove : ∀ x ∈ r, coin.denom < x.denom := (sorted_cons.1 hr).1
  rw [amount_append, amount_cons]
  by_cases hlt : denom < coin.denom
  · -- below the coin: nothing of the denomination at it or after it
    have hr0 : amount r denom = 0 :=
      amount_eq_zero fun x hx => (ne_of_lt (hlt.trans (habove x hx))).symm
    rw [if_pos hlt, hr0, if_neg (ne_of_gt hlt)]
    simp
  by_cases heq : denom = coin.denom
  · have hl0 : amount l denom = 0 := amount_eq_zero fun x hx => heq ▸ ne_of_lt (hbelow x hx)
    have hr0 : amount r denom = 0 := amount_eq_zero fun x hx => heq ▸ ne_of_gt (habove x hx)
    rw [if_neg hlt, if_pos heq, if_pos heq.symm, hl0, hr0]
    simp
  · -- above the coin: nothing of the denomination before it or at it
    have hgt : coin.denom < denom := lt_of_le_of_ne (not_lt.1 hlt) (Ne.symm heq)
    have hl0 : amount l denom = 0 :=
      amount_eq_zero fun x hx => ne_of_lt ((hbelow x hx).trans hgt)
    rw [if_neg hlt, if_neg heq, if_neg (Ne.symm heq), hl0]
    simp

/-! ### What `safeAdd` keeps -/

theorem mem_ite_cons {zero : Bool} {coin coinB : Coin} {coins : Coins}
    (h : coinB ∈ (if zero then coins else coin :: coins)) : coinB = coin ∨ coinB ∈ coins := by
  cases zero with
  | false => exact List.mem_cons.1 h
  | true => exact .inr h

theorem sorted_ite_cons {zero : Bool} {coin : Coin} {coins : Coins} (h : Sorted coins)
    (hlow : ∀ coinB ∈ coins, coin.denom < coinB.denom) :
    Sorted (if zero then coins else coin :: coins) := by
  cases zero with
  | false => exact sorted_cons.2 ⟨hlow, h⟩
  | true => exact h

/-- Each coin of the merge carries a denomination of one of the summands. -/
theorem mem_mergeAdd {coins coinsB : Coins} {coin : Coin} (hc : coin ∈ mergeAdd coins coinsB) :
    ∃ coinA ∈ coins ++ coinsB, coinA.denom = coin.denom := by
  induction coins, coinsB using safeAdd.induct with
  | case1 coinsB =>
    rw [mergeAdd] at hc
    exact ⟨coin, by simpa using (List.mem_filter.1 hc).1, rfl⟩
  | case2 coins hne =>
    rw [mergeAdd] at hc
    · exact ⟨coin, by simpa using (List.mem_filter.1 hc).1, rfl⟩
    · exact hne
  | case3 coinA coins coinB coinsB hlt ih =>
    rw [mergeAdd, if_pos hlt] at hc
    rcases mem_ite_cons hc with rfl | hc
    · exact ⟨coin, by simp, rfl⟩
    · obtain ⟨coinA', hmem, hdenom⟩ := ih hc
      exact ⟨coinA', by simp only [List.mem_append, List.mem_cons] at hmem ⊢; tauto, hdenom⟩
  | case4 coinA coins coinB coinsB hlt heq ih =>
    rw [mergeAdd, if_neg hlt, if_pos heq] at hc
    rcases mem_ite_cons hc with rfl | hc
    · exact ⟨coinA, by simp, rfl⟩
    · obtain ⟨coinA', hmem, hdenom⟩ := ih hc
      exact ⟨coinA', by simp only [List.mem_append, List.mem_cons] at hmem ⊢; tauto, hdenom⟩
  | case5 coinA coins coinB coinsB hlt hne ih =>
    rw [mergeAdd, if_neg hlt, if_neg hne] at hc
    rcases mem_ite_cons hc with rfl | hc
    · exact ⟨coin, by simp, rfl⟩
    · obtain ⟨coinA', hmem, hdenom⟩ := ih hc
      exact ⟨coinA', by simp only [List.mem_append, List.mem_cons] at hmem ⊢; tauto, hdenom⟩

/-- Each coin of a sum carries a denomination of one of the summands. -/
theorem mem_safeAdd {coins coinsB sum : Coins} (h : safeAdd coins coinsB = .ok sum) {coin : Coin}
    (hc : coin ∈ sum) : ∃ coinA ∈ coins ++ coinsB, coinA.denom = coin.denom := by
  rw [safeAdd_eq_mergeAdd h] at hc
  exact mem_mergeAdd hc

/-- A bound below every denomination of the summands bounds those of the merge. -/
theorem lt_of_mem_mergeAdd {coins coinsB : Coins} {denom : String}
    (hlow : ∀ coinA ∈ coins ++ coinsB, denom < coinA.denom) :
    ∀ coin ∈ mergeAdd coins coinsB, denom < coin.denom := by
  intro coin hc
  obtain ⟨coinA, hmem, hdenom⟩ := mem_mergeAdd hc
  exact hdenom ▸ hlow coinA hmem

/-- The merge of two sorted sets of coins is sorted: each coin it puts first is below every
denomination still to come on both sides. -/
theorem mergeAdd_sorted {coins coinsB : Coins} (hs : Sorted coins) (hsB : Sorted coinsB) :
    Sorted (mergeAdd coins coinsB) := by
  induction coins, coinsB using safeAdd.induct with
  | case1 coinsB =>
    rw [mergeAdd]
    exact List.Pairwise.filter _ hsB
  | case2 coins hne =>
    rw [mergeAdd]
    · exact List.Pairwise.filter _ hs
    · exact hne
  | case3 coinA coins coinB coinsB hlt ih =>
    rw [mergeAdd, if_pos hlt]
    obtain ⟨hA, hs⟩ := sorted_cons.1 hs
    obtain ⟨hB, -⟩ := sorted_cons.1 hsB
    refine sorted_ite_cons (ih hs hsB) (lt_of_mem_mergeAdd fun x hx => ?_)
    rcases List.mem_append.1 hx with hx | hx
    · exact hA x hx
    · rcases List.mem_cons.1 hx with rfl | hx
      · exact hlt
      · exact hlt.trans (hB x hx)
  | case4 coinA coins coinB coinsB hlt heq ih =>
    rw [mergeAdd, if_neg hlt, if_pos heq]
    obtain ⟨hA, hs⟩ := sorted_cons.1 hs
    obtain ⟨hB, hsB⟩ := sorted_cons.1 hsB
    refine sorted_ite_cons (ih hs hsB) (lt_of_mem_mergeAdd fun x hx => ?_)
    rcases List.mem_append.1 hx with hx | hx
    · exact hA x hx
    · exact heq ▸ hB x hx
  | case5 coinA coins coinB coinsB hlt hne ih =>
    rw [mergeAdd, if_neg hlt, if_neg hne]
    have hgt : coinB.denom < coinA.denom := lt_of_le_of_ne (not_lt.1 hlt) (Ne.symm hne)
    obtain ⟨hA, -⟩ := sorted_cons.1 hs
    obtain ⟨hB, hsB⟩ := sorted_cons.1 hsB
    refine sorted_ite_cons (ih hs hsB) (lt_of_mem_mergeAdd fun x hx => ?_)
    rcases List.mem_append.1 hx with hx | hx
    · rcases List.mem_cons.1 hx with rfl | hx
      · exact hgt
      · exact hgt.trans (hA x hx)
    · exact hB x hx

/-- The sum of two sorted sets of coins is sorted. -/
theorem safeAdd_sorted {coins coinsB sum : Coins} (h : safeAdd coins coinsB = .ok sum)
    (hs : Sorted coins) (hsB : Sorted coinsB) : Sorted sum := by
  rw [safeAdd_eq_mergeAdd h]
  exact mergeAdd_sorted hs hsB

theorem removeZeroCoins_ne_zero (coins : Coins) : ∀ coin ∈ removeZeroCoins coins, coin.amount ≠ 0 := by
  intro coin hc
  simpa [Coin.isZero] using (List.mem_filter.1 hc).2

theorem ne_zero_of_mem_ite_cons {coin coinB : Coin} {coins : Coins}
    (h : coinB ∈ (if coin.isZero then coins else coin :: coins)) (hcoins : ∀ x ∈ coins, x.amount ≠ 0) :
    coinB.amount ≠ 0 := by
  cases hzero : coin.isZero
  · rw [hzero] at h
    rcases List.mem_cons.1 h with rfl | h
    · simpa [Coin.isZero] using hzero
    · exact hcoins _ h
  · rw [hzero] at h
    exact hcoins _ h

/-- The merge holds no zero coin. -/
theorem mergeAdd_ne_zero (coins coinsB : Coins) : ∀ coin ∈ mergeAdd coins coinsB, coin.amount ≠ 0 := by
  induction coins, coinsB using safeAdd.induct with
  | case1 coinsB =>
    rw [mergeAdd]
    exact removeZeroCoins_ne_zero coinsB
  | case2 coins hne =>
    rw [mergeAdd]
    · exact removeZeroCoins_ne_zero _
    · exact hne
  | case3 coinA coins coinB coinsB hlt ih =>
    rw [mergeAdd, if_pos hlt]
    exact fun coin hc => ne_zero_of_mem_ite_cons hc ih
  | case4 coinA coins coinB coinsB hlt heq ih =>
    rw [mergeAdd, if_neg hlt, if_pos heq]
    exact fun coin hc => ne_zero_of_mem_ite_cons hc ih
  | case5 coinA coins coinB coinsB hlt hne ih =>
    rw [mergeAdd, if_neg hlt, if_neg hne]
    exact fun coin hc => ne_zero_of_mem_ite_cons hc ih

/-- A sum holds no zero coin. -/
theorem safeAdd_ne_zero {coins coinsB sum : Coins} (h : safeAdd coins coinsB = .ok sum) :
    ∀ coin ∈ sum, coin.amount ≠ 0 := by
  rw [safeAdd_eq_mergeAdd h]
  exact mergeAdd_ne_zero coins coinsB

/-- `safeAdd` does not panic when the amounts it adds, those of one denomination in both lists, fit
in 255 bits. -/
theorem safeAdd_ok {coins coinsB : Coins}
    (hfit : ∀ coinA ∈ coins, ∀ coinB ∈ coinsB, coinA.denom = coinB.denom →
      (coinA.amount + coinB.amount).natAbs < 2 ^ maxBitLen) :
    ∃ sum, safeAdd coins coinsB = .ok sum := by
  induction coins, coinsB using safeAdd.induct with
  | case1 coinsB => exact ⟨_, by rw [safeAdd]; rfl⟩
  | case2 coins hne =>
    obtain ⟨head, coins, rfl⟩ := List.exists_cons_of_ne_nil hne
    refine ⟨removeZeroCoins (head :: coins), ?_⟩
    rw [safeAdd]
    · rfl
    · exact hne
  | case3 coinA coins coinB coinsB hlt ih =>
    obtain ⟨rest, hrest⟩ := ih fun x hx y hy => hfit x (List.mem_cons_of_mem _ hx) y hy
    exact ⟨_, by rw [safeAdd, if_pos hlt, hrest]; rfl⟩
  | case4 coinA coins coinB coinsB hlt heq ih =>
    have hres := Coin.add_of_natAbs_lt heq (hfit coinA List.mem_cons_self coinB List.mem_cons_self heq)
    obtain ⟨rest, hrest⟩ :=
      ih fun x hx y hy => hfit x (List.mem_cons_of_mem _ hx) y (List.mem_cons_of_mem _ hy)
    exact ⟨_, by rw [safeAdd, if_neg hlt, if_pos heq, hres, hrest]; rfl⟩
  | case5 coinA coins coinB coinsB hlt hne ih =>
    obtain ⟨rest, hrest⟩ := ih fun x hx y hy => hfit x hx y (List.mem_cons_of_mem _ hy)
    exact ⟨_, by rw [safeAdd, if_neg hlt, if_neg hne, hrest]; rfl⟩

theorem negative_sorted {coins : Coins} (h : Sorted coins) : Sorted coins.negative :=
  List.pairwise_map.2 h

/-! ### Sums and differences of sorted sets -/

/-- On sorted lists `safeAdd` does not panic when the total of each denomination fits in 255 bits. -/
theorem safeAdd_ok_of_sorted {coins coinsB : Coins} (hs : Sorted coins) (hsB : Sorted coinsB)
    (hfit : ∀ denom, (amount coins denom + amount coinsB denom).natAbs < 2 ^ maxBitLen) :
    ∃ sum, safeAdd coins coinsB = .ok sum := by
  refine safeAdd_ok fun coin hc coinB hcB hdenom => ?_
  have h := hfit coin.denom
  rwa [hs.amount_of_mem hc, hdenom, hsB.amount_of_mem hcB] at h

/-- A sorted list without zero coins that holds no negative amount of any denomination holds
positive coins. -/
theorem Sorted.pos_of_amount_nonneg {coins : Coins} (h : Sorted coins)
    (hne : ∀ coin ∈ coins, coin.amount ≠ 0) (hnonneg : ∀ denom, 0 ≤ amount coins denom) :
    ∀ coin ∈ coins, 0 < coin.amount := by
  intro coin hc
  have hcoin := hnonneg coin.denom
  rw [h.amount_of_mem hc] at hcoin
  exact lt_of_le_of_ne hcoin (hne coin hc).symm

/-- What a sorted sum of sorted sets is: sorted, with positive coins when the summands hold no
negative amount. -/
theorem safeAdd_pos {coins coinsB sum : Coins} (h : safeAdd coins coinsB = .ok sum)
    (hs : Sorted coins) (hsB : Sorted coinsB)
    (hnonneg : ∀ denom, 0 ≤ amount coins denom + amount coinsB denom) :
    Sorted sum ∧ ∀ coin ∈ sum, 0 < coin.amount := by
  have hsorted := safeAdd_sorted h hs hsB
  refine ⟨hsorted, hsorted.pos_of_amount_nonneg (safeAdd_ne_zero h) fun denom => ?_⟩
  rw [safeAdd_amount h]
  exact hnonneg denom

theorem isAnyNegative_eq_false {coins : Coins} :
    coins.isAnyNegative = false ↔ ∀ coin ∈ coins, 0 ≤ coin.amount := by
  simp [isAnyNegative, Coin.isNegative]

/-- A sorted set whose coins each fit in 255 bits holds an amount of each denomination that fits. -/
theorem Sorted.amount_natAbs_lt {coins : Coins} (h : Sorted coins)
    (hfit : ∀ coin ∈ coins, coin.amount.natAbs < 2 ^ maxBitLen) (denom : String) :
    (amount coins denom).natAbs < 2 ^ maxBitLen := by
  by_cases hzero : amount coins denom = 0
  · rw [hzero]
    exact Nat.two_pow_pos maxBitLen
  · obtain ⟨coin, hc, rfl⟩ := exists_mem_of_amount_ne_zero hzero
    rw [h.amount_of_mem hc]
    exact hfit coin hc

/-- The merge of sorted sets holds no negative coin exactly when no denomination's total is negative:
it is sorted and holds no zero coin, so each of its coins is a denomination's whole total. -/
theorem mergeAdd_isAnyNegative_eq_false {coins coinsB : Coins} (hs : Sorted coins)
    (hsB : Sorted coinsB) :
    (mergeAdd coins coinsB).isAnyNegative = false ↔
      ∀ denom, 0 ≤ amount coins denom + amount coinsB denom := by
  rw [isAnyNegative_eq_false]
  constructor
  · intro hnonneg denom
    rw [← mergeAdd_amount]
    exact amount_nonneg hnonneg
  · intro hnonneg coin hc
    have hpos := (mergeAdd_sorted hs hsB).pos_of_amount_nonneg (mergeAdd_ne_zero coins coinsB)
      fun denom => by
        rw [mergeAdd_amount]
        exact hnonneg denom
    exact (hpos coin hc).le

/-- `SafeSub` of sorted sets does not panic when each difference fits in 255 bits, and it flags a
negative amount exactly where the second set holds more of a denomination than the first. -/
theorem safeSub_ok {coins coinsB : Coins} (hs : Sorted coins) (hsB : Sorted coinsB)
    (hfit : ∀ denom, (amount coins denom - amount coinsB denom).natAbs < 2 ^ maxBitLen) :
    ∃ diff hasNeg, coins.safeSub coinsB = .ok (diff, hasNeg) ∧
      (hasNeg = false ↔ ∀ denom, amount coinsB denom ≤ amount coins denom) := by
  obtain ⟨diff, hdiff⟩ := safeAdd_ok_of_sorted hs (negative_sorted hsB) fun denom => by
    rw [amount_negative, ← sub_eq_add_neg]
    exact hfit denom
  have hsafe : coins.safeSub coinsB = .ok (diff, diff.isAnyNegative) := by
    rw [safeSub, hdiff]
    rfl
  refine ⟨diff, diff.isAnyNegative, hsafe, ?_⟩
  rw [safeAdd_eq_mergeAdd hdiff, mergeAdd_isAnyNegative_eq_false hs (negative_sorted hsB)]
  simp only [amount_negative, ← sub_eq_add_neg, sub_nonneg]

/-- Taking from a sorted set of coins no more than it holds of each denomination: `Sub` does not
panic, and the rest is sorted and positive. -/
theorem sub_ok {coins coinsB : Coins} (hs : Sorted coins) (hsB : Sorted coinsB)
    (hfit : ∀ denom, (amount coins denom).natAbs < 2 ^ maxBitLen)
    (hle : ∀ denom, 0 ≤ amount coinsB denom ∧ amount coinsB denom ≤ amount coins denom) :
    ∃ diff, coins.sub coinsB = .ok diff ∧ Sorted diff ∧ ∀ coin ∈ diff, 0 < coin.amount := by
  have hnonneg : ∀ denom, 0 ≤ amount coins denom + amount coinsB.negative denom := by
    intro denom
    rw [amount_negative]
    have := hle denom
    omega
  obtain ⟨diff, hdiff⟩ := safeAdd_ok_of_sorted hs (negative_sorted hsB) fun denom => by
    rw [amount_negative]
    have := hle denom
    have := hfit denom
    omega
  obtain ⟨hsorted, hpos⟩ := safeAdd_pos hdiff hs (negative_sorted hsB) hnonneg
  have hneg : diff.isAnyNegative = false := isAnyNegative_eq_false.2 fun coin hc => (hpos coin hc).le
  refine ⟨diff, ?_, hsorted, hpos⟩
  rw [sub, safeSub, hdiff]
  change (if diff.isAnyNegative = true then _ else _) = _
  rw [hneg]
  rfl

/-- Adding sorted sets that hold no negative amount: `Add` does not panic when each total fits in
255 bits, and the sum is sorted and positive. -/
theorem add_ok {coins coinsB : Coins} (hs : Sorted coins) (hsB : Sorted coinsB)
    (hfit : ∀ denom, (amount coins denom + amount coinsB denom).natAbs < 2 ^ maxBitLen)
    (hnonneg : ∀ denom, 0 ≤ amount coins denom ∧ 0 ≤ amount coinsB denom) :
    ∃ sum, coins.add coinsB = .ok sum ∧ Sorted sum ∧ ∀ coin ∈ sum, 0 < coin.amount := by
  obtain ⟨sum, hsum⟩ := safeAdd_ok_of_sorted hs hsB hfit
  obtain ⟨hsorted, hpos⟩ := safeAdd_pos hsum hs hsB fun denom => by
    have := hnonneg denom
    omega
  exact ⟨sum, hsum, hsorted, hpos⟩

/-! ### Valid sets of coins -/

/-- Every denomination matches the pattern of `validateDenom`, which `IsValid` checks of the first
only. -/
def denomsValid (coins : Coins) : Bool := coins.all fun coin => validateDenom coin.denom

theorem isValidAfter_iff {lowDenom : String} {coins : Coins} :
    isValidAfter lowDenom coins = true ↔ Sorted coins ∧
      ∀ coin ∈ coins, lowDenom < coin.denom ∧ coin.denom.toLower = coin.denom ∧ 0 < coin.amount := by
  induction coins generalizing lowDenom with
  | nil => simp [isValidAfter, Sorted]
  | cons coin coins ih =>
    simp only [isValidAfter, Bool.and_eq_true, beq_iff_eq, decide_eq_true_eq, Coin.isPositive, ih,
      sorted_cons, List.forall_mem_cons]
    constructor
    · rintro ⟨⟨⟨hlower, hlow⟩, hpos⟩, hsorted, habove⟩
      exact ⟨⟨fun x hx => (habove x hx).1, hsorted⟩, ⟨hlow, hlower, hpos⟩,
        fun x hx => ⟨hlow.trans (habove x hx).1, (habove x hx).2⟩⟩
    · rintro ⟨⟨habove, hsorted⟩, ⟨hlow, hlower, hpos⟩, hrest⟩
      exact ⟨⟨⟨hlower, hlow⟩, hpos⟩, hsorted, fun x hx => ⟨habove x hx, (hrest x hx).2⟩⟩

/-- What `IsValid` checks: the denominations increase and every amount is positive; the first
denomination matches the pattern, and the others are in lower case. -/
theorem isValid_iff {coins : Coins} :
    isValid coins = true ↔ Sorted coins ∧ (∀ coin ∈ coins, 0 < coin.amount) ∧
      (∀ coin ∈ coins.head?, validateDenom coin.denom = true) ∧
      ∀ coin ∈ coins.tail, coin.denom.toLower = coin.denom := by
  cases coins with
  | nil => simp [isValid, Sorted]
  | cons coin coins =>
    simp only [isValid, Bool.and_eq_true, Coin.isPositive, decide_eq_true_eq, isValidAfter_iff,
      sorted_cons, List.forall_mem_cons, List.head?_cons, Option.mem_def, Option.some.injEq,
      forall_eq', List.tail_cons]
    constructor
    · rintro ⟨⟨hdenom, hpos⟩, hsorted, habove⟩
      exact ⟨⟨fun x hx => (habove x hx).1, hsorted⟩, ⟨hpos, fun x hx => (habove x hx).2.2⟩, hdenom,
        fun x hx => (habove x hx).2.1⟩
    · rintro ⟨⟨habove, hsorted⟩, ⟨hpos, hrest⟩, hdenom, hlower⟩
      exact ⟨⟨hdenom, hpos⟩, hsorted, fun x hx => ⟨habove x hx, hlower x hx, hrest x hx⟩⟩

theorem isValid_sorted {coins : Coins} (h : isValid coins = true) : Sorted coins :=
  (isValid_iff.1 h).1

theorem isValid_pos {coins : Coins} (h : isValid coins = true) : ∀ coin ∈ coins, 0 < coin.amount :=
  (isValid_iff.1 h).2.1

/-- Sorted positive coins whose denominations all match the pattern are valid. -/
theorem isValid_of_denomsValid {coins : Coins} (hs : Sorted coins)
    (hpos : ∀ coin ∈ coins, 0 < coin.amount) (hdenoms : denomsValid coins = true) :
    isValid coins = true := by
  have hdenom : ∀ coin ∈ coins, validateDenom coin.denom = true := List.all_eq_true.1 hdenoms
  refine isValid_iff.2 ⟨hs, hpos, fun coin hc => hdenom coin (List.mem_of_mem_head? hc),
    fun coin hc => Coin.toLower_of_validateDenom (hdenom coin (List.mem_of_mem_tail hc))⟩

theorem denomsValid_iff {coins : Coins} :
    denomsValid coins = true ↔ ∀ coin ∈ coins, validateDenom coin.denom = true :=
  List.all_eq_true

/-- A set of coins whose denominations all occur in a set with valid denominations has valid
denominations. -/
theorem denomsValid_of_mem {coins coinsC : Coins} (hd : denomsValid coins = true)
    (hmem : ∀ coin ∈ coinsC, ∃ coinA ∈ coins, coinA.denom = coin.denom) : denomsValid coinsC = true := by
  rw [denomsValid_iff] at hd ⊢
  intro coin hc
  obtain ⟨coinA, hmemA, hdenom⟩ := hmem coin hc
  exact hdenom ▸ hd coinA hmemA

/-- The denominations of a sum are those of the summands. -/
theorem denomsValid_of_safeAdd {coins coinsB sum : Coins} (h : safeAdd coins coinsB = .ok sum)
    (hd : denomsValid coins = true) (hdB : denomsValid coinsB = true) : denomsValid sum = true := by
  have happend : denomsValid (coins ++ coinsB) = true := by
    simp only [denomsValid, List.all_append, Bool.and_eq_true]
    exact ⟨hd, hdB⟩
  exact denomsValid_of_mem happend fun coin hc => mem_safeAdd h hc

theorem denomsValid_of_add {coins coinsB sum : Coins} (h : coins.add coinsB = .ok sum)
    (hd : denomsValid coins = true) (hdB : denomsValid coinsB = true) : denomsValid sum = true :=
  denomsValid_of_safeAdd h hd hdB

theorem denomsValid_of_sub {coins coinsB diff : Coins} (h : coins.sub coinsB = .ok diff)
    (hd : denomsValid coins = true) (hdB : denomsValid coinsB = true) : denomsValid diff = true := by
  obtain ⟨⟨sum, hasNeg⟩, hsub, h⟩ := except_bind_eq_ok.1 h
  obtain ⟨sum', hsum, hsub⟩ := except_bind_eq_ok.1 hsub
  cases hsub
  have hdiff : sum = diff := by
    cases hneg : sum.isAnyNegative
    · rw [hneg] at h
      cases h
      rfl
    · rw [hneg] at h
      cases h
  have hdneg : denomsValid coinsB.negative = true := by
    simpa [denomsValid, negative] using hdB
  exact hdiff ▸ denomsValid_of_safeAdd hsum hd hdneg

/-- Positive sorted coins of which a set with valid denominations holds at least as much have valid
denominations. -/
theorem denomsValid_of_amount_le {coins coinsB : Coins} (hsB : Sorted coinsB)
    (hpos : ∀ coin ∈ coinsB, 0 < coin.amount) (hd : denomsValid coins = true)
    (hle : ∀ denom, amount coinsB denom ≤ amount coins denom) : denomsValid coinsB = true := by
  refine denomsValid_of_mem hd fun coin hc => exists_mem_of_amount_ne_zero ?_
  have hcoin := hle coin.denom
  rw [hsB.amount_of_mem hc] at hcoin
  have := hpos coin hc
  omega

/-! ### Equality and search -/

theorem eq_of_allEqual {coins coinsB : Coins} (h : allEqual coins coinsB = .ok true)
    (hlen : coins.length = coinsB.length) : coins = coinsB := by
  induction coins generalizing coinsB with
  | nil =>
    cases coinsB with
    | nil => rfl
    | cons _ _ => simp at hlen
  | cons coin coins ih =>
    cases coinsB with
    | nil => simp at hlen
    | cons coinB coinsB =>
      rw [allEqual] at h
      obtain ⟨same, hsame, h⟩ := except_bind_eq_ok.1 h
      cases same with
      | false => cases h
      | true =>
        simp only [Bool.not_true, Bool.false_eq_true, if_false] at h
        rw [Coin.eq_of_isEqual hsame, ih h (by simpa using hlen)]

@[simp] theorem amount_sort (coins : Coins) (denom : String) :
    amount coins.sort denom = amount coins denom := by
  have hperm := List.mergeSort_perm coins fun coin coinB => decide (coin.denom ≤ coinB.denom)
  exact ((hperm.filter _).map _).sum_eq

/-- Sets of coins that `IsEqual` finds equal hold the same amount of every denomination. -/
theorem amount_eq_of_isEqual {coins coinsB : Coins} (h : coins.isEqual coinsB = .ok true)
    (denom : String) : amount coins denom = amount coinsB denom := by
  unfold isEqual at h
  split at h
  · cases h
  · rename_i hlen
    have hsort : coins.sort = coinsB.sort :=
      eq_of_allEqual h (by simpa [sort, List.length_mergeSort] using not_not.1 hlen)
    rw [← amount_sort coins, hsort, amount_sort]

theorem Sorted.amount_get {coins : Coins} (h : Sorted coins) {n : Nat} (hn : n < coins.length)
    (denom : String) :
    amount coins denom =
      if denom < (coins.get ⟨n, hn⟩).denom then amount (coins.take n) denom
      else if denom = (coins.get ⟨n, hn⟩).denom then (coins.get ⟨n, hn⟩).amount
      else amount (coins.drop (n + 1)) denom := by
  have hsplit : coins = coins.take n ++ coins.get ⟨n, hn⟩ :: coins.drop (n + 1) := by
    rw [List.get_eq_getElem, ← List.drop_eq_getElem_cons hn, List.take_append_drop]
  have h' : Sorted (coins.take n ++ coins.get ⟨n, hn⟩ :: coins.drop (n + 1)) := hsplit ▸ h
  conv_lhs => rw [hsplit]
  exact h'.amount_split denom

private theorem middle_lt (head head' : Coin) (tail : Coins) :
    (head :: head' :: tail).length / 2 < (head :: head' :: tail).length := by
  simp only [List.length_cons]
  omega

/-- On a sorted list the binary search of `AmountOf` finds what the list holds. -/
theorem amountOfSearch_eq_amount {coins : Coins} (h : Sorted coins) (denom : String) :
    amountOfSearch coins denom = amount coins denom := by
  induction coins using amountOfSearch.induct denom with
  | case1 => simp [amountOfSearch]
  | case2 coin heq => simp [amountOfSearch, amount_cons, heq]
  | case3 coin hne => simp [amountOfSearch, amount_cons, hne]
  | case4 head head' tail coin hlt ih =>
    rw [amountOfSearch, h.amount_get (middle_lt head head' tail), if_pos hlt, if_pos hlt]
    exact ih (h.sublist (List.take_sublist _ _))
  | case5 head head' tail coin hlt heq =>
    rw [amountOfSearch, h.amount_get (middle_lt head head' tail), if_neg hlt, if_neg hlt, if_pos heq,
      if_pos heq]
  | case6 head head' tail coin hlt hne ih =>
    rw [amountOfSearch, h.amount_get (middle_lt head head' tail), if_neg hlt, if_neg hlt, if_neg hne,
      if_neg hne]
    exact ih (h.sublist (List.drop_sublist _ _))

theorem amountOf_eq_ok {coins : Coins} {denom : String} (h : Sorted coins)
    (hdenom : validateDenom denom = true) : amountOf coins denom = .ok (amount coins denom) := by
  rw [amountOf, if_neg (by simp [hdenom]), amountOfSearch_eq_amount h]
  rfl

/-- The lookup the binary search stands for: a scan for the first coin of the denomination, zero
when there is none. -/
def amountOfLinear (coins : Coins) (denom : String) : Int :=
  match coins.find? fun coin => coin.denom = denom with
  | some coin => coin.amount
  | none => 0

/-- On a sorted list the scan finds the only coin of the denomination, so it reads what the list
holds of it. -/
theorem Sorted.amountOfLinear_eq_amount {coins : Coins} (h : Sorted coins) (denom : String) :
    amountOfLinear coins denom = amount coins denom := by
  induction coins with
  | nil => rfl
  | cons coin coins ih =>
    obtain ⟨hlt, hs⟩ := sorted_cons.1 h
    by_cases hdenom : coin.denom = denom
    · -- every later coin comes after `denom`, so none of them counts
      have hrest : amount coins denom = 0 :=
        amount_eq_zero fun coinB hc heq => (hlt coinB hc).ne (hdenom.trans heq.symm)
      simp [amountOfLinear, hdenom, amount_cons, hrest]
    · rw [amount_cons, if_neg hdenom, Int.zero_add, ← ih hs]
      simp [amountOfLinear, hdenom]

/-- In a sorted list a coin of the denomination is the one the scan finds. -/
theorem Sorted.amountOfLinear_of_mem {coins : Coins} (h : Sorted coins) {coin : Coin}
    (hc : coin ∈ coins) {denom : String} (hdenom : coin.denom = denom) :
    amountOfLinear coins denom = coin.amount := by
  induction coins with
  | nil => cases hc
  | cons head coins ih =>
    obtain ⟨hlt, hs⟩ := sorted_cons.1 h
    rcases List.mem_cons.1 hc with rfl | hc
    · simp [amountOfLinear, hdenom]
    · -- `coin` comes after the head, whose denomination is then not `denom`
      have hne : head.denom ≠ denom := hdenom ▸ (hlt coin hc).ne
      rw [← ih hs hc]
      simp [amountOfLinear, hne]

/-! ### Coins as a canonical multiset -/

/-- On sorted sets the merge is commutative: both sides are the canonical form of the same holdings. -/
theorem mergeAdd_comm {coins coinsB : Coins} (hs : Sorted coins) (hsB : Sorted coinsB) :
    mergeAdd coins coinsB = mergeAdd coinsB coins :=
  (mergeAdd_sorted hs hsB).eq_of_amount_eq (mergeAdd_sorted hsB hs) (mergeAdd_ne_zero _ _)
    (mergeAdd_ne_zero _ _) fun denom => by rw [mergeAdd_amount, mergeAdd_amount, add_comm]

theorem mergeAdd_assoc {coins coinsB coinsC : Coins} (hs : Sorted coins) (hsB : Sorted coinsB)
    (hsC : Sorted coinsC) :
    mergeAdd (mergeAdd coins coinsB) coinsC = mergeAdd coins (mergeAdd coinsB coinsC) :=
  (mergeAdd_sorted (mergeAdd_sorted hs hsB) hsC).eq_of_amount_eq
    (mergeAdd_sorted hs (mergeAdd_sorted hsB hsC)) (mergeAdd_ne_zero _ _) (mergeAdd_ne_zero _ _)
    fun denom => by rw [mergeAdd_amount, mergeAdd_amount, mergeAdd_amount, mergeAdd_amount, add_assoc]

/-- `Add` of sorted sets whose totals fit in 255 bits: the sum is sorted, holds no zero coin, and
holds of each denomination what the two sets hold together. -/
theorem add_canonical {coins coinsB : Coins} (hs : Sorted coins) (hsB : Sorted coinsB)
    (hfit : ∀ denom, (amount coins denom + amount coinsB denom).natAbs < 2 ^ maxBitLen) :
    ∃ sum, coins.add coinsB = .ok sum ∧ Sorted sum ∧ (∀ coin ∈ sum, coin.amount ≠ 0) ∧
      ∀ denom, amount sum denom = amount coins denom + amount coinsB denom := by
  obtain ⟨sum, hsum⟩ := safeAdd_ok_of_sorted hs hsB hfit
  exact ⟨sum, hsum, safeAdd_sorted hsum hs hsB, safeAdd_ne_zero hsum, safeAdd_amount hsum⟩

theorem add_comm_of_sorted {coins coinsB : Coins} (hs : Sorted coins) (hsB : Sorted coinsB)
    (hfit : ∀ denom, (amount coins denom + amount coinsB denom).natAbs < 2 ^ maxBitLen) :
    coins.add coinsB = coinsB.add coins := by
  obtain ⟨sum, hsum, -⟩ := add_canonical hs hsB hfit
  obtain ⟨sum', hsum', -⟩ := add_canonical hsB hs fun denom => by
    rw [add_comm]
    exact hfit denom
  rw [hsum, hsum', safeAdd_eq_mergeAdd hsum, safeAdd_eq_mergeAdd hsum', mergeAdd_comm hs hsB]

theorem add_assoc_of_sorted {coins coinsB coinsC : Coins} (hs : Sorted coins) (hsB : Sorted coinsB)
    (hsC : Sorted coinsC)
    (hfitAB : ∀ denom, (amount coins denom + amount coinsB denom).natAbs < 2 ^ maxBitLen)
    (hfitBC : ∀ denom, (amount coinsB denom + amount coinsC denom).natAbs < 2 ^ maxBitLen)
    (hfitABC : ∀ denom,
      (amount coins denom + amount coinsB denom + amount coinsC denom).natAbs < 2 ^ maxBitLen) :
    (coins.add coinsB >>= fun sum => sum.add coinsC) = (coinsB.add coinsC >>= fun sum => coins.add sum) := by
  obtain ⟨ab, hab, hsAB, -, hamountAB⟩ := add_canonical hs hsB hfitAB
  obtain ⟨bc, hbc, hsBC, -, hamountBC⟩ := add_canonical hsB hsC hfitBC
  obtain ⟨abc, habc, -⟩ := add_canonical hsAB hsC fun denom => by
    rw [hamountAB]
    exact hfitABC denom
  obtain ⟨abc', habc', -⟩ := add_canonical hs hsBC fun denom => by
    rw [hamountBC, ← add_assoc]
    exact hfitABC denom
  rw [hab, hbc, StateExcept.except_ok_bind, StateExcept.except_ok_bind, habc, habc',
    safeAdd_eq_mergeAdd habc, safeAdd_eq_mergeAdd habc', safeAdd_eq_mergeAdd hab,
    safeAdd_eq_mergeAdd hbc, mergeAdd_assoc hs hsB hsC]

/-- `SafeSub` of sorted sets whose differences fit in 255 bits: the difference is sorted, holds no
zero coin and holds of each denomination the difference of the two; the flag is set exactly where
the second set holds more of a denomination, and `IsAllGTE` holds exactly where it nowhere does. -/
theorem safeSub_canonical {coins coinsB : Coins} (hs : Sorted coins) (hsB : Sorted coinsB)
    (hfit : ∀ denom, (amount coins denom - amount coinsB denom).natAbs < 2 ^ maxBitLen) :
    ∃ diff hasNeg, coins.safeSub coinsB = .ok (diff, hasNeg) ∧ Sorted diff ∧
      (∀ coin ∈ diff, coin.amount ≠ 0) ∧
      (∀ denom, amount diff denom = amount coins denom - amount coinsB denom) ∧
      (hasNeg = true ↔ ∃ denom, amount coins denom < amount coinsB denom) ∧
      (coins.isAllGTE coinsB = .ok true ↔ ∀ denom, amount coinsB denom ≤ amount coins denom) := by
  obtain ⟨diff, hasNeg, hsafe, hflag⟩ := safeSub_ok hs hsB hfit
  obtain ⟨sum, hsum, h⟩ := StateExcept.except_bind_eq_ok.1 hsafe
  cases h
  have hgte : coins.isAllGTE coinsB = .ok !diff.isAnyNegative := by
    rw [isAllGTE, hsafe, StateExcept.except_ok_bind]
    dsimp only
    by_cases hlen : diff.length = 0
    · rw [List.length_eq_zero_iff.1 hlen]
      rfl
    · rw [if_neg hlen]
      rfl
  refine ⟨diff, diff.isAnyNegative, hsafe, safeAdd_sorted hsum hs (negative_sorted hsB),
    safeAdd_ne_zero hsum, fun denom => (safeSub_amount hsafe denom).1, ?_, ?_⟩
  · rw [← Bool.not_eq_false, hflag]
    simp only [not_forall, not_le]
  · rw [hgte, ← hflag]
    cases diff.isAnyNegative <;> simp

end Coins

end CosmosSdk.Types
