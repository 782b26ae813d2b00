import CosmosSdk.Types.Coins

/-!
# Accounts

`BaseAccount` and the two vesting accounts of `x/auth/account.go`.  An account is a base account or a
vesting account (`Account`), as the codec registers them; a vesting account is a continuous or a
delayed one (`VestingAccount`), both around a `BaseVestingAccount`.  Besides its coins (`BC`), a vesting
account keeps the coins it started with (`OV`) and what of its delegations is still vesting (`DV`) or
free (`DF`).

`SpendableCoins` of a vesting account is, for each coin, `min((BC + DV) − V, BC)` where `V` is what is
still vesting at the block time.  `TrackDelegation` takes a delegation `D` out of the coins and adds
`X := min(max(V − DV, 0), D)` to `DV` and the rest to `DF`; `TrackUndelegation` puts it back, taking
`X := min(DF, D)` from `DF` and `Y := min(DV, D − X)` from `DV`.  They compute with `sdk.Int`, `sdk.Dec` and
`sdk.Coins`, which panic on overflow, on a negative coin and on a denomination that does not match the
pattern, so each returns `Except Panic`.

The setters of `BaseAccount` return an error that the code never raises but for `SetAddress`; they are
total here.  Block times are `time.Time.Unix()`, seconds as an integer.
-/

namespace CosmosSdk.Auth

open CosmosSdk.Types
open Coins (amount Sorted)

/-- `sdk.AccAddress`: the bytes of an address. -/
abbrev AccAddress := List UInt8

/-- `AccAddress.Empty`. -/
def AccAddress.empty (addr : AccAddress) : Bool := addr.isEmpty

/-- `crypto.PubKey`, by its bytes. -/
abbrev PubKey := List UInt8

/-- `BaseAccount`. -/
structure BaseAccount where
  address : AccAddress
  coins : Coins
  pubKey : Option PubKey
  accountNumber : Nat
  sequence : Nat
  deriving DecidableEq

/-- `ProtoBaseAccount`: the zero account. -/
def protoBaseAccount : BaseAccount := ⟨[], [], none, 0, 0⟩

/-- `BaseAccount.SetAddress`: an address once set is kept. -/
def BaseAccount.setAddress (acc : BaseAccount) (addr : AccAddress) : Except String BaseAccount :=
  if acc.address.length ≠ 0 then .error "cannot override BaseAccount address"
  else .ok { acc with address := addr }

/-- `BaseVestingAccount`. -/
structure BaseVestingAccount where
  baseAccount : BaseAccount
  originalVesting : Coins
  delegatedFree : Coins
  delegatedVesting : Coins
  endTime : Int
  deriving DecidableEq

/-- `ContinuousVestingAccount` and `DelayedVestingAccount`. -/
inductive VestingAccount
  | continuous (bva : BaseVestingAccount) (startTime : Int)
  | delayed (bva : BaseVestingAccount)
  deriving DecidableEq

/-- An account of the store: a `BaseAccount` or a vesting account. -/
inductive Account
  | base (acc : BaseAccount)
  | vesting (vacc : VestingAccount)
  deriving DecidableEq

namespace BaseVestingAccount

/-- One coin of the loop of `spendableCoins`: `min((BC + DV) − V, BC)` of its denomination, added to the
spendable coins unless it is zero. -/
def spendableStep (bva : BaseVestingAccount) (vestingCoins spendableCoins : Coins) (coin : Coin) :
    Except Panic Coins := do
  let baseAmt := coin.amount
  let vestingAmt ← vestingCoins.amountOf coin.denom
  let delVestingAmt ← bva.delegatedVesting.amountOf coin.denom
  let min := min (← SdkInt.sub (← SdkInt.add baseAmt delVestingAmt) vestingAmt) baseAmt
  let spendableCoin ← Coin.newCoin coin.denom min
  if !spendableCoin.isZero then spendableCoins.add [spendableCoin] else pure spendableCoins

/-- `BaseVestingAccount.spendableCoins`, given the coins still vesting. -/
def spendableCoins (bva : BaseVestingAccount) (vestingCoins : Coins) : Except Panic Coins :=
  bva.baseAccount.coins.foldlM (bva.spendableStep vestingCoins) []

/-- The coins with `coins` in place. -/
def withCoins (bva : BaseVestingAccount) (coins : Coins) : BaseVestingAccount :=
  { bva with baseAccount := { bva.baseAccount with coins := coins } }

/-- One coin of the loop of `trackDelegation`; `bc` are the account's coins before the loop. -/
def trackDelegationStep (bc vestingCoins : Coins) (bva : BaseVestingAccount) (coin : Coin) :
    Except Panic BaseVestingAccount := do
  let baseAmt ← bc.amountOf coin.denom
  let vestingAmt ← vestingCoins.amountOf coin.denom
  let delVestingAmt ← bva.delegatedVesting.amountOf coin.denom
  if coin.amount = 0 ∨ baseAmt < coin.amount then
    throw (.other "delegation attempt with zero coins or insufficient funds")
  -- `X := min(max(V - DV, 0), D)`, `Y := D - X`
  let x := min (max (← SdkInt.sub vestingAmt delVestingAmt) 0) coin.amount
  let y ← SdkInt.sub coin.amount x
  let bva ← if x ≠ 0 then do
      let xCoin ← Coin.newCoin coin.denom x
      let delegatedVesting ← bva.delegatedVesting.add [xCoin]
      pure { bva with delegatedVesting := delegatedVesting }
    else pure bva
  let bva ← if y ≠ 0 then do
      let yCoin ← Coin.newCoin coin.denom y
      let delegatedFree ← bva.delegatedFree.add [yCoin]
      pure { bva with delegatedFree := delegatedFree }
    else pure bva
  let coins ← bva.baseAccount.coins.sub [coin]
  pure (bva.withCoins coins)

/-- `BaseVestingAccount.trackDelegation`, given the coins still vesting. -/
def trackDelegation (bva : BaseVestingAccount) (vestingCoins amount : Coins) :
    Except Panic BaseVestingAccount :=
  amount.foldlM (trackDelegationStep bva.baseAccount.coins vestingCoins) bva

/-- One coin of the loop of `TrackUndelegation`. -/
def trackUndelegationStep (bva : BaseVestingAccount) (coin : Coin) :
    Except Panic BaseVestingAccount := do
  if coin.amount = 0 then throw (.other "undelegation attempt with zero coins")
  let delegatedFree ← bva.delegatedFree.amountOf coin.denom
  let delegatedVesting ← bva.delegatedVesting.amountOf coin.denom
  -- `X := min(DF, D)`, `Y := min(DV, D - X)`
  let x := min delegatedFree coin.amount
  let y := min delegatedVesting (← SdkInt.sub coin.amount x)
  let bva ← if x ≠ 0 then do
      let xCoin ← Coin.newCoin coin.denom x
      let delegatedFree ← bva.delegatedFree.sub [xCoin]
      pure { bva with delegatedFree := delegatedFree }
    else pure bva
  let bva ← if y ≠ 0 then do
      let yCoin ← Coin.newCoin coin.denom y
      let delegatedVesting ← bva.delegatedVesting.sub [yCoin]
      pure { bva with delegatedVesting := delegatedVesting }
    else pure bva
  let coins ← bva.baseAccount.coins.add [coin]
  pure (bva.withCoins coins)

/-- `BaseVestingAccount.TrackUndelegation`. -/
def trackUndelegation (bva : BaseVestingAccount) (amount : Coins) : Except Panic BaseVestingAccount :=
  amount.foldlM trackUndelegationStep bva

/-! ### What the spendable coins are -/

section Spendable

variable {bva : BaseVestingAccount} {vestingCoins : Coins}

/-- The spendable amount of one coin: `min((BC + DV) − V, BC)`. -/
def spendableAmount (bva : BaseVestingAccount) (vestingCoins : Coins) (denom : String)
    (baseAmt : Int) : Int :=
  min (baseAmt + amount bva.delegatedVesting denom - amount vestingCoins denom) baseAmt

/-- One coin of the loop, when the account holds enough besides what is vesting: no panic, and the
spendable coins gain the coin's spendable amount. -/
theorem spendableStep_ok {acc : Coins} {coin : Coin} (hV : Sorted vestingCoins)
    (hDV : Sorted bva.delegatedVesting) (hdenom : validateDenom coin.denom = true)
    (hpos : 0 < coin.amount) (hVnonneg : 0 ≤ amount vestingCoins coin.denom)
    (hinv : amount vestingCoins coin.denom ≤ coin.amount + amount bva.delegatedVesting coin.denom)
    (hfit : (coin.amount + amount bva.delegatedVesting coin.denom).natAbs < 2 ^ maxBitLen)
    (hacc : Sorted acc) (hacc0 : amount acc coin.denom = 0)
    (haccfit : ∀ denom, (amount acc denom).natAbs < 2 ^ maxBitLen) :
    ∃ acc', bva.spendableStep vestingCoins acc coin = .ok acc' ∧ Sorted acc' ∧
      ∀ denom, amount acc' denom =
        amount acc denom + if coin.denom = denom then spendableAmount bva vestingCoins coin.denom coin.amount else 0 := by
  set m := spendableAmount bva vestingCoins coin.denom coin.amount with hm
  have hm0 : 0 ≤ m := by
    rw [hm, spendableAmount]
    omega
  have hmfit : m.natAbs < 2 ^ maxBitLen := by
    rw [hm, spendableAmount]
    omega
  have hstep : bva.spendableStep vestingCoins acc coin =
      (if (!(decide (m = 0))) = true then acc.safeAdd [⟨coin.denom, m⟩] else pure acc) := by
    have hsub : SdkInt.sub (coin.amount + amount bva.delegatedVesting coin.denom)
        (amount vestingCoins coin.denom) =
        .ok (coin.amount + amount bva.delegatedVesting coin.denom - amount vestingCoins coin.denom) :=
      SdkInt.sub_of_natAbs_lt (by omega)
    simp only [spendableStep, Coins.amountOf_eq_ok hV hdenom, Coins.amountOf_eq_ok hDV hdenom,
      StateExcept.except_ok_bind, SdkInt.add_of_natAbs_lt hfit, hsub]
    rw [show min (coin.amount + amount bva.delegatedVesting coin.denom - amount vestingCoins coin.denom)
      coin.amount = m from rfl, Coin.newCoin_of_nonneg hdenom hm0]
    rfl
  rw [hstep]
  by_cases hzero : m = 0
  · -- a zero spendable coin is not added
    refine ⟨acc, by simp [hzero]; rfl, hacc, fun denom => by simp [hzero]⟩
  · have hfitSum : ∀ denom, (amount acc denom + amount [⟨coin.denom, m⟩] denom).natAbs < 2 ^ maxBitLen := by
      intro denom
      rw [Coins.amount_cons]
      by_cases hd : coin.denom = denom
      · rw [← hd, hacc0, if_pos rfl]
        simpa using hmfit
      · rw [if_neg hd]
        simpa using haccfit denom
    obtain ⟨acc', hadd⟩ := Coins.safeAdd_ok_of_sorted hacc (List.pairwise_singleton _ _) hfitSum
    refine ⟨acc', by simp [hzero, hadd], Coins.safeAdd_sorted hadd hacc (List.pairwise_singleton _ _),
      fun denom => ?_⟩
    rw [Coins.safeAdd_amount hadd, Coins.amount_cons]
    simp

/-- The loop from spendable coins `acc` that hold nothing of the denominations still to come: each
coin adds its spendable amount. -/
theorem spendableCoins_foldlM {coins acc : Coins} (hV : Sorted vestingCoins)
    (hDV : Sorted bva.delegatedVesting) (hs : Sorted coins)
    (hcoin : ∀ coin ∈ coins, validateDenom coin.denom = true ∧ 0 < coin.amount ∧
      0 ≤ amount vestingCoins coin.denom ∧
      amount vestingCoins coin.denom ≤ coin.amount + amount bva.delegatedVesting coin.denom ∧
      (coin.amount + amount bva.delegatedVesting coin.denom).natAbs < 2 ^ maxBitLen)
    (hacc : Sorted acc) (hacc0 : ∀ coin ∈ coins, amount acc coin.denom = 0)
    (haccfit : ∀ denom, (amount acc denom).natAbs < 2 ^ maxBitLen) :
    ∃ spendable, coins.foldlM (bva.spendableStep vestingCoins) acc = .ok spendable ∧
      Sorted spendable ∧ ∀ denom, amount spendable denom = amount acc denom +
        amount (coins.map fun coin => ⟨coin.denom, spendableAmount bva vestingCoins coin.denom coin.amount⟩)
          denom := by
  induction coins generalizing acc with
  | nil => exact ⟨acc, rfl, hacc, fun denom => by simp⟩
  | cons coin coins ih =>
    obtain ⟨hbelow, hs⟩ := Coins.sorted_cons.1 hs
    obtain ⟨hdenom, hpos, hVnonneg, hinv, hfit⟩ := hcoin coin List.mem_cons_self
    obtain ⟨acc', hstep, hacc', hamount⟩ := spendableStep_ok hV hDV hdenom hpos hVnonneg hinv hfit hacc
      (hacc0 coin List.mem_cons_self) fun denom => haccfit denom
    -- what the step adds is of the coin's denomination, which the coins still to come do not share
    have hacc0' : ∀ c ∈ coins, amount acc' c.denom = 0 := by
      intro c hc
      rw [hamount, if_neg (ne_of_lt (hbelow c hc)), hacc0 c (List.mem_cons_of_mem _ hc), add_zero]
    have haccfit' : ∀ denom, (amount acc' denom).natAbs < 2 ^ maxBitLen := by
      intro denom
      rw [hamount]
      by_cases hd : coin.denom = denom
      · rw [if_pos hd, ← hd, hacc0 coin List.mem_cons_self, zero_add, spendableAmount]
        omega
      · rw [if_neg hd, add_zero]
        exact haccfit denom
    obtain ⟨spendable, hfold, hsorted, hspendable⟩ :=
      ih hs (fun c hc => hcoin c (List.mem_cons_of_mem _ hc)) hacc' hacc0' haccfit'
    refine ⟨spendable, ?_, hsorted, fun denom => ?_⟩
    · rw [List.foldlM_cons, hstep, StateExcept.except_ok_bind, hfold]
    · rw [hspendable, hamount, List.map_cons, Coins.amount_cons]
      ring

/-- `spendableCoins` of an account whose coins and delegated vesting coins cover what is vesting, for
each denomination: no panic, and it holds `min((BC + DV) − V, BC)` of each denomination. -/
theorem spendableCoins_ok (hBC : Sorted bva.baseAccount.coins)
    (hpos : ∀ coin ∈ bva.baseAccount.coins, 0 < coin.amount)
    (hdenoms : Coins.denomsValid bva.baseAccount.coins = true)
    (hV : Sorted vestingCoins) (hVnonneg : ∀ denom, 0 ≤ amount vestingCoins denom)
    (hDV : Sorted bva.delegatedVesting)
    (hinv : ∀ denom, amount vestingCoins denom ≤
      amount bva.baseAccount.coins denom + amount bva.delegatedVesting denom)
    (hfit : ∀ denom,
      (amount bva.baseAccount.coins denom + amount bva.delegatedVesting denom).natAbs < 2 ^ maxBitLen) :
    ∃ spendable, bva.spendableCoins vestingCoins = .ok spendable ∧ Sorted spendable ∧
      ∀ denom, amount spendable denom =
        spendableAmount bva vestingCoins denom (amount bva.baseAccount.coins denom) := by
  have hcoin : ∀ coin ∈ bva.baseAccount.coins, validateDenom coin.denom = true ∧ 0 < coin.amount ∧
      0 ≤ amount vestingCoins coin.denom ∧
      amount vestingCoins coin.denom ≤ coin.amount + amount bva.delegatedVesting coin.denom ∧
      (coin.amount + amount bva.delegatedVesting coin.denom).natAbs < 2 ^ maxBitLen := by
    intro coin hc
    have hamount := hBC.amount_of_mem hc
    refine ⟨List.all_eq_true.1 hdenoms coin hc, hpos coin hc, hVnonneg _, ?_, ?_⟩
    · rw [← hamount]
      exact hinv coin.denom
    · rw [← hamount]
      exact hfit coin.denom
  obtain ⟨spendable, hfold, hsorted, hamount⟩ := spendableCoins_foldlM hV hDV hBC hcoin
    (List.Pairwise.nil) (fun _ _ => rfl) fun _ => by simp
  refine ⟨spendable, hfold, hsorted, fun denom => ?_⟩
  rw [hamount, Coins.amount_nil, zero_add,
    hBC.amount_map hpos (fun denom baseAmt => spendableAmount bva vestingCoins denom baseAmt)]
  split_ifs with hzero
  · -- a denomination the account does not hold: what is vesting of it is delegated
    have := hinv denom
    rw [hzero, spendableAmount]
    omega
  · rfl

/-- What is spendable of a denomination is at most what the account holds of it, and not negative. -/
theorem spendableAmount_le {denom : String} {baseAmt : Int} (hbase : 0 ≤ baseAmt)
    (hinv : amount vestingCoins denom ≤ baseAmt + amount bva.delegatedVesting denom) :
    0 ≤ spendableAmount bva vestingCoins denom baseAmt ∧
      spendableAmount bva vestingCoins denom baseAmt ≤ baseAmt := by
  rw [spendableAmount]
  omega

end Spendable

end BaseVestingAccount

namespace VestingAccount

/-- The embedded `BaseVestingAccount`. -/
def bva : VestingAccount → BaseVestingAccount
  | .continuous bva _ => bva
  | .delayed bva => bva

/-- The account with its `BaseVestingAccount` replaced. -/
def withBva (vacc : VestingAccount) (bva : BaseVestingAccount) : VestingAccount :=
  match vacc with
  | .continuous _ startTime => .continuous bva startTime
  | .delayed _ => .delayed bva

/-- `GetVestedCoins`: for a continuous account, each original coin scaled by the part of the vesting
time elapsed (`Dec.Quo`, `Dec.Mul`, `Dec.RoundInt`); for a delayed one, all at the end time. -/
def getVestedCoins (vacc : VestingAccount) (blockTime : Int) : Except Panic Coins :=
  match vacc with
  | .continuous bva startTime =>
    if blockTime ≤ startTime then pure []
    else if blockTime ≥ bva.endTime then pure bva.originalVesting
    else do
      let x := blockTime - startTime
      let y := bva.endTime - startTime
      let s ← (Dec.newDecWithPrec x 0).quo (Dec.newDecWithPrec y 0)
      bva.originalVesting.mapM fun ovc => do
        let vestedAmt ← (← (Dec.newDecFromInt ovc.amount).mul s).roundInt
        Coin.newCoin ovc.denom vestedAmt
  | .delayed bva => pure (if blockTime ≥ bva.endTime then bva.originalVesting else [])

/-- `GetVestingCoins`: the original coins less the vested ones. -/
def getVestingCoins (vacc : VestingAccount) (blockTime : Int) : Except Panic Coins := do
  vacc.bva.originalVesting.sub (← vacc.getVestedCoins blockTime)

/-- `SpendableCoins`. -/
def spendableCoins (vacc : VestingAccount) (blockTime : Int) : Except Panic Coins := do
  vacc.bva.spendableCoins (← vacc.getVestingCoins blockTime)

/-- `TrackDelegation`. -/
def trackDelegation (vacc : VestingAccount) (blockTime : Int) (amount : Coins) :
    Except Panic VestingAccount := do
  let bva ← vacc.bva.trackDelegation (← vacc.getVestingCoins blockTime) amount
  pure (vacc.withBva bva)

/-- `TrackUndelegation`. -/
def trackUndelegation (vacc : VestingAccount) (amount : Coins) : Except Panic VestingAccount := do
  let bva ← vacc.bva.trackUndelegation amount
  pure (vacc.withBva bva)

@[simp] theorem bva_withBva (vacc : VestingAccount) (bva : BaseVestingAccount) :
    (vacc.withBva bva).bva = bva := by
  cases vacc <;> rfl

/-- What is vesting does not depend on the coins the account holds. -/
theorem getVestingCoins_withCoins (vacc : VestingAccount) (coins : Coins) (blockTime : Int) :
    (vacc.withBva (vacc.bva.withCoins coins)).getVestingCoins blockTime = vacc.getVestingCoins blockTime := by
  cases vacc <;> rfl

/-! ### What the bank relies on -/

/-- A vesting account at a block time as `SpendableCoins` needs it: what is still vesting is computed
without panic, sorted and not negative; the delegated vesting coins are sorted and not negative; and
for each denomination the coins and the delegated vesting coins cover what is vesting. -/
structure Inv (vacc : VestingAccount) (blockTime : Int) : Prop where
  vesting : ∃ vestingCoins, vacc.getVestingCoins blockTime = .ok vestingCoins ∧ Sorted vestingCoins ∧
    (∀ denom, 0 ≤ amount vestingCoins denom) ∧
    ∀ denom, amount vestingCoins denom ≤
      amount vacc.bva.baseAccount.coins denom + amount vacc.bva.delegatedVesting denom
  delegatedVesting : Sorted vacc.bva.delegatedVesting
  delegatedVesting_nonneg : ∀ denom, 0 ≤ amount vacc.bva.delegatedVesting denom

/-- Other coins that still cover what is vesting keep the invariant. -/
theorem Inv.withCoins {vacc : VestingAccount} {blockTime : Int} (hinv : vacc.Inv blockTime)
    {coins : Coins} (hcover : ∀ vestingCoins, vacc.getVestingCoins blockTime = .ok vestingCoins →
      ∀ denom, amount vestingCoins denom ≤ amount coins denom + amount vacc.bva.delegatedVesting denom) :
    (vacc.withBva (vacc.bva.withCoins coins)).Inv blockTime := by
  obtain ⟨vestingCoins, hV, hsorted, hnonneg, -⟩ := hinv.vesting
  refine ⟨⟨vestingCoins, ?_, hsorted, hnonneg, ?_⟩, ?_, ?_⟩
  · rw [getVestingCoins_withCoins, hV]
  · simpa [BaseVestingAccount.withCoins] using hcover vestingCoins hV
  · simpa [BaseVestingAccount.withCoins] using hinv.delegatedVesting
  · simpa [BaseVestingAccount.withCoins] using hinv.delegatedVesting_nonneg

/-- `SpendableCoins` of a vesting account in the invariant, whose coins are valid with every
denomination matching the pattern: no panic, at most the coins of each denomination, and taking no
more than it leaves the vesting coins covered. -/
theorem Inv.spendableCoins_ok {vacc : VestingAccount} {blockTime : Int} (hinv : vacc.Inv blockTime)
    (hBC : Sorted vacc.bva.baseAccount.coins)
    (hpos : ∀ coin ∈ vacc.bva.baseAccount.coins, 0 < coin.amount)
    (hdenoms : Coins.denomsValid vacc.bva.baseAccount.coins = true)
    (hfit : ∀ denom, (amount vacc.bva.baseAccount.coins denom +
      amount vacc.bva.delegatedVesting denom).natAbs < 2 ^ maxBitLen) :
    ∃ spendable, vacc.spendableCoins blockTime = .ok spendable ∧ Sorted spendable ∧
      (∀ denom, 0 ≤ amount spendable denom ∧
        amount spendable denom ≤ amount vacc.bva.baseAccount.coins denom) ∧
      ∀ vestingCoins, vacc.getVestingCoins blockTime = .ok vestingCoins → ∀ denom,
        amount vestingCoins denom ≤ amount vacc.bva.baseAccount.coins denom - amount spendable denom +
          amount vacc.bva.delegatedVesting denom := by
  obtain ⟨vestingCoins, hV, hsorted, hnonneg, hcover⟩ := hinv.vesting
  obtain ⟨spendable, hspendable, hsortedS, hamount⟩ :=
    BaseVestingAccount.spendableCoins_ok hBC hpos hdenoms hsorted hnonneg hinv.delegatedVesting hcover hfit
  have hbase : ∀ denom, 0 ≤ amount vacc.bva.baseAccount.coins denom := fun denom =>
    Coins.amount_nonneg fun coin hc => (hpos coin hc).le
  refine ⟨spendable, ?_, hsortedS, fun denom => ?_, fun vestingCoins' hV' denom => ?_⟩
  · rw [spendableCoins, hV]
    exact hspendable
  · rw [hamount]
    exact BaseVestingAccount.spendableAmount_le (hbase denom) (hcover denom)
  · rw [hV] at hV'
    cases hV'
    rw [hamount, BaseVestingAccount.spendableAmount]
    have := hcover denom
    omega

end VestingAccount

namespace Account

/-- The embedded `BaseAccount`. -/
def baseAccount : Account → BaseAccount
  | .base acc => acc
  | .vesting vacc => vacc.bva.baseAccount

/-- `GetAddress`. -/
def getAddress (acc : Account) : AccAddress := acc.baseAccount.address

/-- `GetCoins`. -/
def getCoins (acc : Account) : Coins := acc.baseAccount.coins

/-- `SetCoins`. -/
def setCoins (acc : Account) (coins : Coins) : Account :=
  match acc with
  | .base b => .base { b with coins := coins }
  | .vesting vacc => .vesting (vacc.withBva (vacc.bva.withCoins coins))

@[simp] theorem getAddress_setCoins (acc : Account) (coins : Coins) :
    (acc.setCoins coins).getAddress = acc.getAddress := by
  cases acc with
  | base b => rfl
  | vesting vacc => cases vacc <;> rfl

@[simp] theorem getCoins_setCoins (acc : Account) (coins : Coins) :
    (acc.setCoins coins).getCoins = coins := by
  cases acc with
  | base b => rfl
  | vesting vacc => cases vacc <;> rfl

/-- The coins of an account that was found, none where none was. -/
def coinsOrEmpty : Option Account → Coins
  | none => []
  | some acc => acc.getCoins

/-- `SpendableCoins`: all the coins of a base account. -/
def spendableCoins (acc : Account) (blockTime : Int) : Except Panic Coins :=
  match acc with
  | .base b => pure b.coins
  | .vesting vacc => vacc.spendableCoins blockTime

end Account

end CosmosSdk.Auth
