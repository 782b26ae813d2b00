import CosmosSdk.Types.Coins

/-!
# Decimal coins

`DecCoin` and `DecCoins` (`types/dec_coin.go`): coins whose amount is an `sdk.Dec`.  `DecCoins.safeAdd`
is the loop of `Coins.safeAdd` with `DecCoin.Add`, whose `Dec.Add` panics beyond `255 + 60` bits.  Read
through their raw amounts (`toCoins`), decimal coins are coins, and what `safeAdd` returns is the
merge of `Coins` (`safeAdd_toCoins`).  So a sum of sorted sets is sorted, holds no zero coin and adds
what the two sets hold of each denomination (`add_canonical`), and `SafeSub` flags exactly the
denominations where the second set holds more (`safeSub_canonical`).

`coins_canonical_multiset` gathers these facts for `Coins` and `DecCoins`, with commutativity and
associativity of `Add`.
-/

namespace CosmosSdk.Types

open Coins (amount Sorted mergeAdd)

/-- `DecCoin`. -/
structure DecCoin where
  denom : String
  amount : Dec
  deriving DecidableEq

/-- `DecCoins`. -/
abbrev DecCoins := List DecCoin

namespace DecCoin

/-- `DecCoin.IsZero`. -/
def isZero (coin : DecCoin) : Bool := coin.amount.isZero

/-- `DecCoin.IsNegative`. -/
def isNegative (coin : DecCoin) : Bool := coin.amount.isNegative

/-- `DecCoin.Add`. -/
def add (coin coinB : DecCoin) : Except Panic DecCoin :=
  if coin.denom ≠ coinB.denom then
    throw (.other ("coin denom different: " ++ coin.denom ++ " " ++ coinB.denom ++ "\n"))
  else do
    let amount ← coin.amount.add coinB.amount
    pure ⟨coin.denom, amount⟩

/-- The coin of the raw amount. -/
def toCoin (coin : DecCoin) : Coin := ⟨coin.denom, coin.amount.raw⟩

theorem add_eq_ok {coin coinB res : DecCoin} (h : coin.add coinB = .ok res) :
    coin.denom = coinB.denom ∧ res.toCoin = ⟨coin.denom, coin.amount.raw + coinB.amount.raw⟩ := by
  unfold add at h
  split at h
  · cases h
  · rename_i hdenom
    obtain ⟨amount, hamount, h⟩ := StateExcept.except_bind_eq_ok.1 h
    cases h
    exact ⟨not_not.1 hdenom, by rw [toCoin, Dec.add_eq_ok hamount]⟩

theorem add_of_natAbs_lt {coin coinB : DecCoin} (hdenom : coin.denom = coinB.denom)
    (hfit : (coin.amount.raw + coinB.amount.raw).natAbs < 2 ^ (maxBitLen + decimalPrecisionBits)) :
    coin.add coinB = .ok ⟨coin.denom, ⟨coin.amount.raw + coinB.amount.raw⟩⟩ := by
  rw [add, if_neg (not_not.2 hdenom), Dec.add_of_natAbs_lt hfit]
  rfl

@[simp] theorem toCoin_denom (coin : DecCoin) : coin.toCoin.denom = coin.denom := rfl

@[simp] theorem toCoin_amount (coin : DecCoin) : coin.toCoin.amount = coin.amount.raw := rfl

@[simp] theorem isZero_toCoin (coin : DecCoin) : coin.toCoin.isZero = coin.isZero := rfl

theorem toCoin_injective : Function.Injective toCoin := by
  rintro ⟨denom, ⟨raw⟩⟩ ⟨denom', ⟨raw'⟩⟩ h
  simp only [toCoin, Coin.mk.injEq] at h
  rw [h.1, h.2]

end DecCoin

namespace DecCoins

/-- `removeZeroDecCoins`. -/
def removeZeroDecCoins (coins : DecCoins) : DecCoins := coins.filter fun coin => !coin.isZero

/-- `DecCoins.safeAdd`: the loop of `Coins.safeAdd` over decimal coins. -/
def safeAdd : DecCoins → DecCoins → Except Panic DecCoins
  | [], coinsB => pure (removeZeroDecCoins coinsB)
  | coins, [] => pure (removeZeroDecCoins coins)
  | coinA :: coins, coinB :: coinsB =>
    if coinA.denom < coinB.denom then do
      let sum ← safeAdd coins (coinB :: coinsB)
      pure (if coinA.isZero then sum else coinA :: sum)
    else if coinA.denom = coinB.denom then do
      let res ← coinA.add coinB
      let sum ← safeAdd coins coinsB
      pure (if res.isZero then sum else res :: sum)
    else do
      let sum ← safeAdd (coinA :: coins) coinsB
      pure (if coinB.isZero then sum else coinB :: sum)
termination_by coins coinsB => coins.length + coinsB.length

/-- `DecCoins.Add`. -/
def add (coins coinsB : DecCoins) : Except Panic DecCoins := coins.safeAdd coinsB

/-- `DecCoins.negative`. -/
def negative (coins : DecCoins) : DecCoins := coins.map fun coin => ⟨coin.denom, coin.amount.neg⟩

/-- `DecCoins.IsAnyNegative`. -/
def isAnyNegative (coins : DecCoins) : Bool := coins.any DecCoin.isNegative

/-- `DecCoins.SafeSub`. -/
def safeSub (coins coinsB : DecCoins) : Except Panic (DecCoins × Bool) := do
  let diff ← coins.safeAdd coinsB.negative
  pure (diff, diff.isAnyNegative)

/-- The raw amounts of a set of decimal coins, as coins. -/
def toCoins (coins : DecCoins) : Coins := coins.map DecCoin.toCoin

/-- `DecCoins.AmountOf`: `mustValidateDenom`, then the binary search of `Coins.AmountOf`, over the raw
amounts. -/
def amountOf (coins : DecCoins) (denom : String) : Except Panic Dec := do
  let amount ← (toCoins coins).amountOf denom
  pure ⟨amount⟩

@[simp] theorem toCoins_nil : toCoins [] = [] := rfl

@[simp] theorem toCoins_cons (coin : DecCoin) (coins : DecCoins) :
    toCoins (coin :: coins) = coin.toCoin :: toCoins coins := rfl

theorem toCoins_ite_cons (zero : Bool) (coin : DecCoin) (coins : DecCoins) :
    toCoins (if zero then coins else coin :: coins) =
      if zero then toCoins coins else coin.toCoin :: toCoins coins := by
  cases zero <;> rfl

theorem toCoins_removeZeroDecCoins (coins : DecCoins) :
    toCoins (removeZeroDecCoins coins) = Coins.removeZeroCoins (toCoins coins) := by
  rw [toCoins, removeZeroDecCoins, Coins.removeZeroCoins, toCoins, List.filter_map]
  rfl

theorem toCoins_negative (coins : DecCoins) : toCoins coins.negative = (toCoins coins).negative := by
  simp [toCoins, negative, Coins.negative, DecCoin.toCoin, Dec.neg]

theorem isAnyNegative_toCoins (coins : DecCoins) :
    (toCoins coins).isAnyNegative = coins.isAnyNegative := by
  simp [toCoins, isAnyNegative, Coins.isAnyNegative, List.any_map]
  rfl

theorem toCoins_injective : Function.Injective toCoins :=
  List.map_injective_iff.2 DecCoin.toCoin_injective

theorem mem_toCoins {coins : DecCoins} {coin : DecCoin} (h : coin ∈ coins) :
    coin.toCoin ∈ toCoins coins :=
  List.mem_map_of_mem h

theorem amountOf_eq_ok {coins : DecCoins} {denom : String} (h : Sorted (toCoins coins))
    (hdenom : validateDenom denom = true) : coins.amountOf denom = .ok ⟨amount (toCoins coins) denom⟩ := by
  rw [amountOf, Coins.amountOf_eq_ok h hdenom]
  rfl

/-- The lookup the binary search stands for: a scan for the first coin of the denomination,
`ZeroDec` when there is none. -/
def amountOfLinear (coins : DecCoins) (denom : String) : Dec :=
  match coins.find? fun coin => coin.denom = denom with
  | some coin => coin.amount
  | none => Dec.zero

/-- The scan reads the raw amounts as the scan of `Coins` does. -/
theorem amountOfLinear_eq (coins : DecCoins) (denom : String) :
    amountOfLinear coins denom = ⟨Coins.amountOfLinear (toCoins coins) denom⟩ := by
  have hp : ((fun coin : Coin => decide (coin.denom = denom)) ∘ DecCoin.toCoin) =
      fun coin => decide (coin.denom = denom) := rfl
  rw [amountOfLinear, Coins.amountOfLinear, toCoins, List.find?_map, hp]
  cases coins.find? fun coin => coin.denom = denom with
  | none => rfl
  | some coin => rfl

/-- What `safeAdd` returns, read through the raw amounts, is the merge of `Coins`. -/
theorem safeAdd_toCoins {coins coinsB sum : DecCoins} (h : safeAdd coins coinsB = .ok sum) :
    toCoins sum = mergeAdd (toCoins coins) (toCoins coinsB) := by
  induction coins, coinsB using safeAdd.induct generalizing sum with
  | case1 coinsB =>
    rw [safeAdd] at h
    cases h
    rw [toCoins_nil, mergeAdd, toCoins_removeZeroDecCoins]
  | case2 coins hne =>
    obtain ⟨coin, coins, rfl⟩ := List.exists_cons_of_ne_nil hne
    rw [safeAdd] at h
    · cases h
      rw [toCoins_nil, mergeAdd, toCoins_removeZeroDecCoins]
      simp
    · exact hne
  | case3 coinA coins coinB coinsB hlt ih =>
    rw [safeAdd, if_pos hlt] at h
    obtain ⟨rest, hrest, h⟩ := StateExcept.except_bind_eq_ok.1 h
    cases h
    rw [toCoins_ite_cons, ih hrest, toCoins_cons, toCoins_cons, mergeAdd,
      if_pos (show coinA.toCoin.denom < coinB.toCoin.denom from hlt)]
    rfl
  | case4 coinA coins coinB coinsB hlt heq ih =>
    rw [safeAdd, if_neg hlt, if_pos heq] at h
    obtain ⟨res, hres, h⟩ := StateExcept.except_bind_eq_ok.1 h
    obtain ⟨rest, hrest, h⟩ := StateExcept.except_bind_eq_ok.1 h
    cases h
    obtain ⟨-, hres⟩ := DecCoin.add_eq_ok hres
    rw [toCoins_ite_cons, ih hrest, toCoins_cons, toCoins_cons, mergeAdd,
      if_neg (show ¬coinA.toCoin.denom < coinB.toCoin.denom from hlt),
      if_pos (show coinA.toCoin.denom = coinB.toCoin.denom from heq), ← DecCoin.isZero_toCoin, hres]
    rfl
  | case5 coinA coins coinB coinsB hlt hne ih =>
    rw [safeAdd, if_neg hlt, if_neg hne] at h
    obtain ⟨rest, hrest, h⟩ := StateExcept.except_bind_eq_ok.1 h
    cases h
    rw [toCoins_ite_cons, ih hrest, toCoins_cons, toCoins_cons, mergeAdd,
      if_neg (show ¬coinA.toCoin.denom < coinB.toCoin.denom from hlt),
      if_neg (show ¬coinA.toCoin.denom = coinB.toCoin.denom from hne)]
    rfl

/-- `safeAdd` does not panic when the amounts it adds, those of one denomination in both lists, fit
in `255 + 60` bits. -/
theorem safeAdd_ok {coins coinsB : DecCoins}
    (hfit : ∀ coinA ∈ coins, ∀ coinB ∈ coinsB, coinA.denom = coinB.denom →
      (coinA.amount.raw + coinB.amount.raw).natAbs < 2 ^ (maxBitLen + decimalPrecisionBits)) :
    ∃ sum, safeAdd coins coinsB = .ok sum := by
  induction coins, coinsB using safeAdd.induct with
  | case1 coinsB => exact ⟨_, by rw [safeAdd]; rfl⟩
  | case2 coins hne =>
    obtain ⟨head, coins, rfl⟩ := List.exists_cons_of_ne_nil hne
    refine ⟨removeZeroDecCoins (head :: coins), ?_⟩
    rw [safeAdd]
    · rfl
    · exact hne
  | case3 coinA coins coinB coinsB hlt ih =>
    obtain ⟨rest, hrest⟩ := ih fun x hx y hy => hfit x (List.mem_cons_of_mem _ hx) y hy
    exact ⟨_, by rw [safeAdd, if_pos hlt, hrest]; rfl⟩
  | case4 coinA coins coinB coinsB hlt heq ih =>
    have hres :=
      DecCoin.add_of_natAbs_lt heq (hfit coinA List.mem_cons_self coinB List.mem_cons_self heq)
    obtain ⟨rest, hrest⟩ :=
      ih fun x hx y hy => hfit x (List.mem_cons_of_mem _ hx) y (List.mem_cons_of_mem _ hy)
    exact ⟨_, by rw [safeAdd, if_neg hlt, if_pos heq, hres, hrest]; rfl⟩
  | case5 coinA coins coinB coinsB hlt hne ih =>
    obtain ⟨rest, hrest⟩ := ih fun x hx y hy => hfit x hx y (List.mem_cons_of_mem _ hy)
    exact ⟨_, by rw [safeAdd, if_neg hlt, if_neg hne, hrest]; rfl⟩

/-- On sorted sets `safeAdd` does not panic when the total of each denomination fits. -/
theorem safeAdd_ok_of_sorted {coins coinsB : DecCoins} (hs : Sorted (toCoins coins))
    (hsB : Sorted (toCoins coinsB))
    (hfit : ∀ denom, (amount (toCoins coins) denom + amount (toCoins coinsB) denom).natAbs <
      2 ^ (maxBitLen + decimalPrecisionBits)) :
    ∃ sum, safeAdd coins coinsB = .ok sum := by
  refine safeAdd_ok fun coin hc coinB hcB hdenom => ?_
  have hA := hs.amount_of_mem (mem_toCoins hc)
  have hB := hsB.amount_of_mem (mem_toCoins hcB)
  simp only [DecCoin.toCoin_denom, DecCoin.toCoin_amount] at hA hB
  have h := hfit coin.denom
  rwa [hA, hdenom, hB] at h

/-- `Add` of sorted sets whose totals fit: the sum is sorted, holds no zero coin, and holds of each
denomination what the two sets hold together. -/
theorem add_canonical {coins coinsB : DecCoins} (hs : Sorted (toCoins coins))
    (hsB : Sorted (toCoins coinsB))
    (hfit : ∀ denom, (amount (toCoins coins) denom + amount (toCoins coinsB) denom).natAbs <
      2 ^ (maxBitLen + decimalPrecisionBits)) :
    ∃ sum, coins.add coinsB = .ok sum ∧ Sorted (toCoins sum) ∧ (∀ coin ∈ sum, coin.amount.raw ≠ 0) ∧
      ∀ denom, amount (toCoins sum) denom = amount (toCoins coins) denom + amount (toCoins coinsB) denom := by
  obtain ⟨sum, hsum⟩ := safeAdd_ok_of_sorted hs hsB hfit
  have hmerge := safeAdd_toCoins hsum
  refine ⟨sum, hsum, hmerge ▸ Coins.mergeAdd_sorted hs hsB, fun coin hc => ?_, fun denom => ?_⟩
  · have hmem := mem_toCoins hc
    rw [hmerge] at hmem
    exact Coins.mergeAdd_ne_zero _ _ _ hmem
  · rw [hmerge, Coins.mergeAdd_amount]

theorem add_comm_of_sorted {coins coinsB : DecCoins} (hs : Sorted (toCoins coins))
    (hsB : Sorted (toCoins coinsB))
    (hfit : ∀ denom, (amount (toCoins coins) denom + amount (toCoins coinsB) denom).natAbs <
      2 ^ (maxBitLen + decimalPrecisionBits)) :
    coins.add coinsB = coinsB.add coins := by
  obtain ⟨sum, hsum, -⟩ := add_canonical hs hsB hfit
  obtain ⟨sum', hsum', -⟩ := add_canonical hsB hs fun denom => by
    rw [add_comm]
    exact hfit denom
  -- both sums are the one merge of the raw amounts
  have hraw : toCoins sum = toCoins sum' := by
    rw [safeAdd_toCoins hsum, safeAdd_toCoins hsum', Coins.mergeAdd_comm hs hsB]
  rw [hsum, hsum', toCoins_injective hraw]

theorem add_assoc_of_sorted {coins coinsB coinsC : DecCoins} (hs : Sorted (toCoins coins))
    (hsB : Sorted (toCoins coinsB)) (hsC : Sorted (toCoins coinsC))
    (hfitAB : ∀ denom, (amount (toCoins coins) denom + amount (toCoins coinsB) denom).natAbs <
      2 ^ (maxBitLen + decimalPrecisionBits))
    (hfitBC : ∀ denom, (amount (toCoins coinsB) denom + amount (toCoins coinsC) denom).natAbs <
      2 ^ (maxBitLen + decimalPrecisionBits))
    (hfitABC : ∀ denom, (amount (toCoins coins) denom + amount (toCoins coinsB) denom +
      amount (toCoins coinsC) denom).natAbs < 2 ^ (maxBitLen + decimalPrecisionBits)) :
    (coins.add coinsB >>= fun sum => sum.add coinsC) = (coinsB.add coinsC >>= fun sum => coins.add sum) := by
  obtain ⟨ab, hab, hsAB, -, hamountAB⟩ := add_canonical hs hsB hfitAB
  obtain ⟨bc, hbc, hsBC, -, hamountBC⟩ := add_canonical hsB hsC hfitBC
  obtain ⟨abc, habc, -⟩ := add_canonical hsAB hsC fun denom => by
    rw [hamountAB]
    exact hfitABC denom
  obtain ⟨abc', habc', -⟩ := add_canonical hs hsBC fun denom => by
    rw [hamountBC, ← add_assoc]
    exact hfitABC denom
  have hraw : toCoins abc = toCoins abc' := by
    rw [safeAdd_toCoins habc, safeAdd_toCoins habc', safeAdd_toCoins hab, safeAdd_toCoins hbc,
      Coins.mergeAdd_assoc hs hsB hsC]
  rw [hab, hbc, StateExcept.except_ok_bind, StateExcept.except_ok_bind, habc, habc',
    toCoins_injective hraw]

/-- `SafeSub` of sorted sets whose differences fit: the difference is sorted, holds no zero coin and
holds of each denomination the difference of the two, and the flag is set exactly where the second set
holds more of a denomination. -/
theorem safeSub_canonical {coins coinsB : DecCoins} (hs : Sorted (toCoins coins))
    (hsB : Sorted (toCoins coinsB))
    (hfit : ∀ denom, (amount (toCoins coins) denom - amount (toCoins coinsB) denom).natAbs <
      2 ^ (maxBitLen + decimalPrecisionBits)) :
    ∃ diff hasNeg, coins.safeSub coinsB = .ok (diff, hasNeg) ∧ Sorted (toCoins diff) ∧
      (∀ coin ∈ diff, coin.amount.raw ≠ 0) ∧
      (∀ denom, amount (toCoins diff) denom = amount (toCoins coins) denom - amount (toCoins coinsB) denom) ∧
      (hasNeg = true ↔ ∃ denom, amount (toCoins coins) denom < amount (toCoins coinsB) denom) := by
  have hsN : Sorted (toCoins coinsB.negative) := by
    rw [toCoins_negative]
    exact Coins.negative_sorted hsB
  obtain ⟨diff, hdiff, hsorted, hne, hamount⟩ := add_canonical hs hsN fun denom => by
    rw [toCoins_negative, Coins.amount_negative, ← sub_eq_add_neg]
    exact hfit denom
  have hflag : diff.isAnyNegative = false ↔
      ∀ denom, amount (toCoins coinsB) denom ≤ amount (toCoins coins) denom := by
    rw [← isAnyNegative_toCoins, safeAdd_toCoins hdiff, toCoins_negative,
      Coins.mergeAdd_isAnyNegative_eq_false hs (Coins.negative_sorted hsB)]
    simp only [Coins.amount_negative, ← sub_eq_add_neg, sub_nonneg]
  refine ⟨diff, diff.isAnyNegative, by rw [safeSub]; exact by rw [show coins.safeAdd coinsB.negative = .ok diff from hdiff]; rfl,
    hsorted, hne, fun denom => ?_, ?_⟩
  · rw [hamount, toCoins_negative, Coins.amount_negative, sub_eq_add_neg]
  · rw [← Bool.not_eq_false, hflag]
    simp only [not_forall, not_le]

end DecCoins

/-! ### `AmountOf` against a scan -/

/-- On lists sorted by strictly increasing denomination, the binary searches of `Coins.AmountOf`
and `DecCoins.AmountOf` return, for a valid denomination, what a scan of the list finds: the amount
of the one coin of that denomination, or zero when there is none. -/
theorem amountOf_agrees_with_lookup (coins : Coins) (decCoins : DecCoins) (denom : String)
    (hs : Sorted coins) (hds : Sorted (DecCoins.toCoins decCoins))
    (hdenom : validateDenom denom = true) :
    (coins.amountOf denom = .ok (Coins.amountOfLinear coins denom) ∧
      ∀ coin ∈ coins, coin.denom = denom → Coins.amountOfLinear coins denom = coin.amount) ∧
    (decCoins.amountOf denom = .ok (DecCoins.amountOfLinear decCoins denom) ∧
      ∀ coin ∈ decCoins, coin.denom = denom → DecCoins.amountOfLinear decCoins denom = coin.amount) := by
  refine ⟨⟨?_, fun coin hc hd => hs.amountOfLinear_of_mem hc hd⟩, ⟨?_, fun coin hc hd => ?_⟩⟩
  · rw [Coins.amountOf_eq_ok hs hdenom, hs.amountOfLinear_eq_amount]
  · rw [DecCoins.amountOf_eq_ok hds hdenom, DecCoins.amountOfLinear_eq, hds.amountOfLinear_eq_amount]
  · -- the coin read through its raw amount is the coin the scan of `Coins` finds
    rw [DecCoins.amountOfLinear_eq, hds.amountOfLinear_of_mem (DecCoins.mem_toCoins hc) hd]
    rfl

/-- The last of two coins, and the only decimal coin. -/
theorem amountOf_agrees_with_lookup_btc :
    Coins.amountOf [⟨"atom", 2⟩, ⟨"btc", 1⟩] "btc" = .ok 1 ∧
      DecCoins.amountOf [⟨"btc", ⟨7⟩⟩] "btc" = .ok ⟨7⟩ := by
  have h := amountOf_agrees_with_lookup [⟨"atom", 2⟩, ⟨"btc", 1⟩] [⟨"btc", ⟨7⟩⟩] "btc"
    (by decide +kernel) (List.pairwise_singleton _ _) (by decide +kernel)
  exact ⟨h.1.1.trans (congrArg Except.ok (by decide +kernel)),
    h.2.1.trans (congrArg Except.ok (by decide +kernel))⟩

/-! ### The multiset algebra of `Coins` and `DecCoins` -/

/-- Sorted sets of coins, read through `AmountOf`, add and subtract as multisets of denominations as
long as no amount overflows: 255 bits for `Coins`, `255 + 60` bits of the raw amount for `DecCoins`. -/
theorem coins_canonical_multiset :
    (∀ coins : Coins, Sorted coins → ∀ denom, validateDenom denom = true →
      coins.amountOf denom = .ok (amount coins denom)) ∧
    (∀ coins coinsB : Coins, Sorted coins → Sorted coinsB →
      (∀ denom, (amount coins denom + amount coinsB denom).natAbs < 2 ^ maxBitLen) →
      ∃ sum, coins.add coinsB = .ok sum ∧ Sorted sum ∧ (∀ coin ∈ sum, coin.amount ≠ 0) ∧
        (∀ denom, amount sum denom = amount coins denom + amount coinsB denom) ∧
        coinsB.add coins = .ok sum) ∧
    (∀ coins coinsB coinsC : Coins, Sorted coins → Sorted coinsB → Sorted coinsC →
      (∀ denom, (amount coins denom + amount coinsB denom).natAbs < 2 ^ maxBitLen) →
      (∀ denom, (amount coinsB denom + amount coinsC denom).natAbs < 2 ^ maxBitLen) →
      (∀ denom, (amount coins denom + amount coinsB denom + amount coinsC denom).natAbs <
        2 ^ maxBitLen) →
      (coins.add coinsB >>= fun sum => sum.add coinsC) =
        (coinsB.add coinsC >>= fun sum => coins.add sum)) ∧
    (∀ coins coinsB : Coins, Sorted coins → Sorted coinsB →
      (∀ denom, (amount coins denom - amount coinsB denom).natAbs < 2 ^ maxBitLen) →
      ∃ diff hasNeg, coins.safeSub coinsB = .ok (diff, hasNeg) ∧ Sorted diff ∧
        (∀ coin ∈ diff, coin.amount ≠ 0) ∧
        (∀ denom, amount diff denom = amount coins denom - amount coinsB denom) ∧
        (hasNeg = true ↔ ∃ denom, amount coins denom < amount coinsB denom) ∧
        (coins.isAllGTE coinsB = .ok true ↔ ∀ denom, amount coinsB denom ≤ amount coins denom)) ∧
    (∀ coins : DecCoins, Sorted (DecCoins.toCoins coins) → ∀ denom, validateDenom denom = true →
      coins.amountOf denom = .ok ⟨amount (DecCoins.toCoins coins) denom⟩) ∧
    (∀ coins coinsB : DecCoins, Sorted (DecCoins.toCoins coins) → Sorted (DecCoins.toCoins coinsB) →
      (∀ denom, (amount (DecCoins.toCoins coins) denom + amount (DecCoins.toCoins coinsB) denom).natAbs <
        2 ^ (maxBitLen + decimalPrecisionBits)) →
      ∃ sum, coins.add coinsB = .ok sum ∧ Sorted (DecCoins.toCoins sum) ∧
        (∀ coin ∈ sum, coin.amount.raw ≠ 0) ∧
        (∀ denom, amount (DecCoins.toCoins sum) denom =
          amount (DecCoins.toCoins coins) denom + amount (DecCoins.toCoins coinsB) denom) ∧
        coinsB.add coins = .ok sum) ∧
    (∀ coins coinsB coinsC : DecCoins, Sorted (DecCoins.toCoins coins) →
      Sorted (DecCoins.toCoins coinsB) → Sorted (DecCoins.toCoins coinsC) →
      (∀ denom, (amount (DecCoins.toCoins coins) denom + amount (DecCoins.toCoins coinsB) denom).natAbs <
        2 ^ (maxBitLen + decimalPrecisionBits)) →
      (∀ denom, (amount (DecCoins.toCoins coinsB) denom + amount (DecCoins.toCoins coinsC) denom).natAbs <
        2 ^ (maxBitLen + decimalPrecisionBits)) →
      (∀ denom, (amount (DecCoins.toCoins coins) denom + amount (DecCoins.toCoins coinsB) denom +
        amount (DecCoins.toCoins coinsC) denom).natAbs < 2 ^ (maxBitLen + decimalPrecisionBits)) →
      (coins.add coinsB >>= fun sum => sum.add coinsC) =
        (coinsB.add coinsC >>= fun sum => coins.add sum)) ∧
    (∀ coins coinsB : DecCoins, Sorted (DecCoins.toCoins coins) → Sorted (DecCoins.toCoins coinsB) →
      (∀ denom, (amount (DecCoins.toCoins coins) denom - amount (DecCoins.toCoins coinsB) denom).natAbs <
        2 ^ (maxBitLen + decimalPrecisionBits)) →
      ∃ diff hasNeg, coins.safeSub coinsB = .ok (diff, hasNeg) ∧ Sorted (DecCoins.toCoins diff) ∧
        (∀ coin ∈ diff, coin.amount.raw ≠ 0) ∧
        (∀ denom, amount (DecCoins.toCoins diff) denom =
          amount (DecCoins.toCoins coins) denom - amount (DecCoins.toCoins coinsB) denom) ∧
        (hasNeg = true ↔
          ∃ denom, amount (DecCoins.toCoins coins) denom < amount (DecCoins.toCoins coinsB) denom)) := by
  refine ⟨fun _ hs _ hdenom => Coins.amountOf_eq_ok hs hdenom, fun _ _ hs hsB hfit => ?_,
    fun _ _ _ hs hsB hsC => Coins.add_assoc_of_sorted hs hsB hsC, fun _ _ hs hsB =>
    Coins.safeSub_canonical hs hsB, fun _ hs _ hdenom => DecCoins.amountOf_eq_ok hs hdenom,
    fun _ _ hs hsB hfit => ?_, fun _ _ _ hs hsB hsC => DecCoins.add_assoc_of_sorted hs hsB hsC,
    fun _ _ hs hsB => DecCoins.safeSub_canonical hs hsB⟩
  · obtain ⟨sum, hsum, hrest⟩ := Coins.add_canonical hs hsB hfit
    exact ⟨sum, hsum, hrest.1, hrest.2.1, hrest.2.2, (Coins.add_comm_of_sorted hs hsB hfit).symm.trans hsum⟩
  · obtain ⟨sum, hsum, hrest⟩ := DecCoins.add_canonical hs hsB hfit
    exact ⟨sum, hsum, hrest.1, hrest.2.1, hrest.2.2,
      (DecCoins.add_comm_of_sorted hs hsB hfit).symm.trans hsum⟩

/-- Two sorted sets in which `"atom"` cancels. -/
theorem coins_canonical_multiset_atom :
    ∃ sum, Coins.add [⟨"atom", 2⟩] [⟨"atom", -2⟩, ⟨"btc", 1⟩] = .ok sum ∧ Sorted sum ∧
      (∀ coin ∈ sum, coin.amount ≠ 0) ∧
      (∀ denom, amount sum denom =
        amount [⟨"atom", 2⟩] denom + amount [⟨"atom", -2⟩, ⟨"btc", 1⟩] denom) ∧
      Coins.add [⟨"atom", -2⟩, ⟨"btc", 1⟩] [⟨"atom", 2⟩] = .ok sum :=
  coins_canonical_multiset.2.1 _ _ (by decide +kernel) (by decide +kernel) fun denom => by
    simp only [Coins.amount_cons, Coins.amount_nil]
    split_ifs <;> decide

/-- Sorted sets whose total overflows 255 bits: `Add` panics. -/
theorem coins_add_overflows :
    Coins.add [⟨"atom", 2 ^ 254⟩] [⟨"atom", 2 ^ 254⟩] = .error intOverflow := by
  have hover : bitLen (2 ^ 254 + 2 ^ 254) > maxBitLen := by decide
  rw [Coins.add, Coins.safeAdd, if_neg (lt_irrefl _), if_pos rfl, Coin.add, if_neg (not_not.2 rfl),
    SdkInt.add, if_pos hover]
  rfl

/-! ### Scaling, subtraction and intersection -/

namespace DecCoins

/-- `DecCoins.Sub`: `SafeSub`, which must leave no negative coin. -/
def sub (coins coinsB : DecCoins) : Except Panic DecCoins := do
  let (diff, hasNeg) ← coins.safeSub coinsB
  if hasNeg then throw (.other "negative coin amount")
  pure diff

/-- `DecCoins.MulDec`. -/
def mulDec (coins : DecCoins) (d : Dec) : Except Panic DecCoins :=
  coins.mapM fun coin => do
    let amount ← coin.amount.mul d
    pure ⟨coin.denom, amount⟩

/-- `DecCoins.MulDecTruncate`. -/
def mulDecTruncate (coins : DecCoins) (d : Dec) : Except Panic DecCoins :=
  coins.mapM fun coin => do
    let amount ← coin.amount.mulTruncate d
    pure ⟨coin.denom, amount⟩

/-- `DecCoins.Intersect`: each coin capped by what the other set holds of its denomination, and the
zero coins dropped. -/
def intersect (coins coinsB : DecCoins) : Except Panic DecCoins := do
  let res ← coins.mapM fun coin => do
    let amountB ← coinsB.amountOf coin.denom
    pure (⟨coin.denom, Dec.minDec coin.amount amountB⟩ : DecCoin)
  pure (removeZeroDecCoins res)

/-- `DecCoins.String`: each coin as its amount and denomination, joined by commas. -/
def toString (coins : DecCoins) : String :=
  ",".intercalate (coins.map fun coin => coin.amount.toString ++ coin.denom)

/-- `NewDecCoins`: each coin through `NewDecCoinFromCoin`, which panics on a negative amount. -/
def newDecCoins (coins : Coins) : Except Panic DecCoins :=
  coins.mapM fun coin =>
    if coin.amount < 0 then throw (.other ("negative decimal coin amount: " ++ coin.amount.repr ++ "\n"))
    else pure ⟨coin.denom, Dec.newDecFromInt coin.amount⟩

/-! ### Sets of one denomination -/

theorem safeAdd_nil_left (coins : DecCoins) : safeAdd [] coins = .ok (removeZeroDecCoins coins) := by
  rw [safeAdd]
  rfl

/-- Two coins of one denomination whose sum fits: the sum, unless it is zero. -/
theorem safeAdd_same {denom : String} {a b : Dec}
    (hfit : (a.raw + b.raw).natAbs < 2 ^ (maxBitLen + decimalPrecisionBits)) :
    safeAdd [⟨denom, a⟩] [⟨denom, b⟩] = .ok (removeZeroDecCoins [⟨denom, ⟨a.raw + b.raw⟩⟩]) := by
  rw [safeAdd, if_neg (lt_irrefl _), if_pos rfl, @DecCoin.add_of_natAbs_lt ⟨denom, a⟩ ⟨denom, b⟩ rfl hfit,
    StateExcept.except_ok_bind, safeAdd_nil_left, StateExcept.except_ok_bind]
  by_cases hzero : (⟨denom, ⟨a.raw + b.raw⟩⟩ : DecCoin).isZero = true
  · simp [removeZeroDecCoins, hzero]
    rfl
  · simp [removeZeroDecCoins, hzero]
    rfl

/-- The difference of two coins of one denomination that fits: a panic if it is negative, and
otherwise the difference, unless it is zero. -/
theorem sub_same {denom : String} {a b : Dec}
    (hfit : (a.raw - b.raw).natAbs < 2 ^ (maxBitLen + decimalPrecisionBits)) :
    sub [⟨denom, a⟩] [⟨denom, b⟩] =
      if a.raw - b.raw < 0 then .error (.other "negative coin amount")
      else .ok (removeZeroDecCoins [⟨denom, ⟨a.raw - b.raw⟩⟩]) := by
  have hadd : safeAdd [⟨denom, a⟩] (negative [⟨denom, b⟩]) =
      .ok (removeZeroDecCoins [⟨denom, ⟨a.raw - b.raw⟩⟩]) := by
    rw [negative, List.map_cons, List.map_nil, safeAdd_same (by rwa [Dec.neg, ← Int.sub_eq_add_neg])]
    rfl
  have hneg : isAnyNegative (removeZeroDecCoins [⟨denom, ⟨a.raw - b.raw⟩⟩]) = decide (a.raw - b.raw < 0) := by
    by_cases hzero : a.raw - b.raw = 0
    · rw [hzero]
      rfl
    · have hkeep : removeZeroDecCoins [⟨denom, ⟨a.raw - b.raw⟩⟩] = [⟨denom, ⟨a.raw - b.raw⟩⟩] := by
        simp [removeZeroDecCoins, DecCoin.isZero, Dec.isZero, hzero]
      rw [hkeep]
      simp [isAnyNegative, DecCoin.isNegative, Dec.isNegative]
  rw [sub, safeSub, hadd]
  show (if isAnyNegative _ = true then _ else _) = _
  rw [hneg]
  by_cases hlt : a.raw - b.raw < 0
  · rw [if_pos (decide_eq_true hlt), if_pos hlt]
    rfl
  · rw [if_neg (by simpa using hlt), if_neg hlt]
    rfl

end DecCoins

end CosmosSdk.Types
