import CosmosSdk.Bank.Handler

/-!
# What a transfer can fail with

A bank message that succeeds moves its coins and nothing else (`handler_moves`).  This module says
when it fails.  From a sound state (`State.Sound`: every account holds valid coins whose denominations
all match the pattern of `validateDenom`, a vesting account keeps the invariant `SpendableCoins` needs,
and what the accounts hold of each denomination fits in 255 bits), with `SendEnabled` on, a message
that passes `ValidateBasic` and whose inputs' amounts fit in 255 bits does not panic, and the only
error it returns is the one of the spendable check of `subtractCoins` on one of its inputs
(`InsufficientFunds`).  A run that succeeds keeps the state sound.

Each hypothesis is needed:
* `IsValid` checks the pattern of the first denomination only, so a sender whose balance is
  `5atom,3b` and who sends `5atom` is left with `3b`, which `setCoins` refuses with `ErrInvalidCoins`
  (`handler_send_invalid_remainder`).
* A recipient whose balance and the amount it receives overflow 255 bits makes `Coins.Add` panic.
* A vesting account outside its invariant makes `SpendableCoins` panic.

The results rest on `subtractCheck_of_spendable` (the checks of `subtractCoins` once the spendable
coins are known) and on `State.Sound.writeCoins` (what `setCoins` keeps).
-/

namespace CosmosSdk.Bank

open CosmosSdk.Types Auth StateExcept
open Coins (amount Sorted)

/-! ### Sound states -/

/-- An account as the checks of the bank need it at a block time: valid coins whose denominations all
match the pattern and, for a vesting account, the invariant of `SpendableCoins`, with room in 255 bits
for `bound` and the delegated vesting coins together. -/
structure SoundAccount (acc : Account) (blockTime : Int) (bound : String → Int) : Prop where
  valid : acc.getCoins.isValid = true
  denoms : Coins.denomsValid acc.getCoins = true
  vesting : ∀ vacc, acc = .vesting vacc → vacc.Inv blockTime ∧
    ∀ denom, (bound denom + amount vacc.bva.delegatedVesting denom).natAbs < 2 ^ maxBitLen

/-- A state the bank runs on without a panic: every account sound, and what all the accounts hold of
each denomination at most `bound`, which fits in 255 bits. -/
structure State.Sound (s : State) (blockTime : Int) (bound : String → Int) : Prop where
  accounts : ∀ addr acc, s.store.getAccount addr = some acc → SoundAccount acc blockTime bound
  total_le : ∀ denom, s.total denom ≤ bound denom
  bound_fits : ∀ denom, (bound denom).natAbs < 2 ^ maxBitLen

section Sound

variable {blockTime : Int} {bound : String → Int}

theorem SoundAccount.setCoins {acc : Account} (hacc : SoundAccount acc blockTime bound) {amt : Coins}
    (hvalid : amt.isValid = true) (hdenoms : Coins.denomsValid amt = true)
    (hcover : ∀ vacc, acc = .vesting vacc → ∀ vestingCoins,
      vacc.getVestingCoins blockTime = .ok vestingCoins →
      ∀ denom, amount vestingCoins denom ≤ amount amt denom + amount vacc.bva.delegatedVesting denom) :
    SoundAccount (acc.setCoins amt) blockTime bound where
  valid := by
    rw [Account.getCoins_setCoins]
    exact hvalid
  denoms := by
    rw [Account.getCoins_setCoins]
    exact hdenoms
  vesting vacc' h := by
    cases acc with
    | base b => cases h
    | vesting vacc =>
      simp only [Account.setCoins, Account.vesting.injEq] at h
      subst h
      obtain ⟨hinv, hfits⟩ := hacc.vesting vacc rfl
      refine ⟨hinv.withCoins (hcover vacc rfl), fun denom => ?_⟩
      simpa [BaseVestingAccount.withCoins] using hfits denom

namespace State.Sound

variable {s : State} (hs : s.Sound blockTime bound)
include hs

/-- The coins of the account at `addr`, or none: the facts a sound account gives of its coins. -/
theorem coinsOf_sound (addr : AccAddress) :
    (s.coinsOf addr).isValid = true ∧ Coins.denomsValid (s.coinsOf addr) = true := by
  unfold coinsOf
  cases hacc : s.store.getAccount addr with
  | none => exact ⟨rfl, rfl⟩
  | some acc => exact ⟨(hs.accounts addr acc hacc).valid, (hs.accounts addr acc hacc).denoms⟩

theorem balancesValid : s.BalancesValid := fun addr => (hs.coinsOf_sound addr).1

theorem coinsOf_sorted (addr : AccAddress) : Sorted (s.coinsOf addr) :=
  Coins.isValid_sorted (hs.coinsOf_sound addr).1

theorem balance_nonneg (addr : AccAddress) (denom : String) : 0 ≤ s.balance addr denom :=
  Coins.amount_nonneg fun coin hc => (Coins.isValid_pos (hs.coinsOf_sound addr).1 coin hc).le

/-- An account holds at most what all of them hold. -/
theorem balance_le_total (addr : AccAddress) (denom : String) : s.balance addr denom ≤ s.total denom := by
  rw [← State.entryValue_eq_balance]
  refine Finmap.entryValue_le_sumBy (fun a acc hacc => ?_) addr
  exact Coins.amount_nonneg fun coin hc => (Coins.isValid_pos (hs.accounts a acc hacc).valid coin hc).le

theorem balance_natAbs_lt (addr : AccAddress) (denom : String) :
    (s.balance addr denom).natAbs < 2 ^ maxBitLen := by
  have hnonneg := hs.balance_nonneg addr denom
  have hle := hs.balance_le_total addr denom
  have htotal := hs.total_le denom
  have hfits := hs.bound_fits denom
  omega

/-- `setCoins` of valid coins with valid denominations keeps a state sound, when what is vesting at
the address stays covered and the total stays within the bound. -/
theorem writeCoins {addr : AccAddress} {amt : Coins} (hvalid : amt.isValid = true)
    (hdenoms : Coins.denomsValid amt = true)
    (hcover : ∀ vacc, s.store.getAccount addr = some (.vesting vacc) → ∀ vestingCoins,
      vacc.getVestingCoins blockTime = .ok vestingCoins →
      ∀ denom, amount vestingCoins denom ≤ amount amt denom + amount vacc.bva.delegatedVesting denom)
    (htotal : ∀ denom, s.total denom - s.balance addr denom + amount amt denom ≤ bound denom) :
    (s.writeCoins addr amt).Sound blockTime bound where
  accounts a acc' hacc' := by
    by_cases ha : a = addr
    · subst ha
      cases hacc : s.store.getAccount a with
      | some acc =>
        rw [State.getAccount_writeCoins_of_some hacc] at hacc'
        cases hacc'
        exact (hs.accounts a acc hacc).setCoins hvalid hdenoms fun vacc hv => hcover vacc (hv ▸ hacc)
      | none =>
        rw [State.getAccount_writeCoins_of_none hacc] at hacc'
        cases hacc'
        exact ⟨hvalid, hdenoms, fun vacc h => by cases h⟩
    · rw [State.getAccount_writeCoins_of_ne amt ha] at hacc'
      exact hs.accounts a acc' hacc'
  total_le denom := by
    rw [State.total_writeCoins]
    exact htotal denom
  bound_fits := hs.bound_fits

end State.Sound

/-! ### `subtractCoins` and `addCoins` -/

/-- The error of the spendable check of `subtractCoins` on an amount that the spendable coins do not
cover. -/
def InsufficientFunds (err : Error) (amt : Coins) : Prop :=
  ∃ spendableCoins diff, spendableCoins.safeSub amt = .ok (diff, true) ∧
    err = insufficientFunds spendableCoins amt

/-- The coins and the spendable coins of a sound account, none where there is none: no panic, the
spendable coins sorted and between none and the coins, and what is vesting covered by the coins that
are not spendable and the delegated vesting coins. -/
theorem oldAndSpendable_sound {acc : Option Account}
    (hacc : ∀ a, acc = some a → SoundAccount a blockTime bound)
    (hbound : ∀ denom, amount (Account.coinsOrEmpty acc) denom ≤ bound denom) :
    ∃ spendable, oldAndSpendable blockTime acc = .ok (Account.coinsOrEmpty acc, spendable) ∧
      Sorted spendable ∧
      (∀ denom, 0 ≤ amount spendable denom ∧
        amount spendable denom ≤ amount (Account.coinsOrEmpty acc) denom) ∧
      ∀ vacc, acc = some (.vesting vacc) → ∀ vestingCoins,
        vacc.getVestingCoins blockTime = .ok vestingCoins → ∀ denom,
        amount vestingCoins denom ≤ amount (Account.coinsOrEmpty acc) denom - amount spendable denom +
          amount vacc.bva.delegatedVesting denom := by
  cases acc with
  | none =>
    refine ⟨[], rfl, List.Pairwise.nil, fun denom => ?_, fun vacc h => by cases h⟩
    simp [Account.coinsOrEmpty]
  | some acc =>
    have hsound := hacc acc rfl
    have hsorted := Coins.isValid_sorted hsound.valid
    have hpos := Coins.isValid_pos hsound.valid
    cases acc with
    | base b =>
      refine ⟨b.coins, rfl, hsorted, fun denom => ⟨?_, le_rfl⟩, fun vacc h => by cases h⟩
      exact Coins.amount_nonneg fun coin hc => (hpos coin hc).le
    | vesting vacc =>
      obtain ⟨hinv, hfits⟩ := hsound.vesting vacc rfl
      -- what the account holds is within the bound, so with the delegated vesting coins it fits
      have hfit : ∀ denom, (amount vacc.bva.baseAccount.coins denom +
          amount vacc.bva.delegatedVesting denom).natAbs < 2 ^ maxBitLen := fun denom => by
        have hle := hbound denom
        have hbase : 0 ≤ amount vacc.bva.baseAccount.coins denom :=
          Coins.amount_nonneg fun coin hc => (hpos coin hc).le
        have hdv := hinv.delegatedVesting_nonneg denom
        have := hfits denom
        simp only [Account.coinsOrEmpty, Account.getCoins, Account.baseAccount] at hle
        omega
      obtain ⟨spendable, hspendable, hsortedS, hle, hcover⟩ :=
        hinv.spendableCoins_ok hsorted hpos hsound.denoms hfit
      refine ⟨spendable, ?_, hsortedS, hle, fun vacc' h => ?_⟩
      · simp only [oldAndSpendable, Account.spendableCoins, hspendable]
        rfl
      · simp only [Option.some.injEq, Account.vesting.injEq] at h
        subst h
        exact hcover

/-- `subtractCheck` once the coins and the spendable coins are known, sorted, the spendable coins
between none and the coins, and the amounts within 255 bits: the error of the spendable check where
the amount is not covered, and otherwise the coins less the amount, sorted and positive. -/
theorem subtractCheck_of_spendable {acc : Option Account} {oldCoins spendable amt : Coins}
    (hold : oldAndSpendable blockTime acc = .ok (oldCoins, spendable)) (hsorted : Sorted oldCoins)
    (hsortedS : Sorted spendable) (hsortedA : Sorted amt)
    (hle : ∀ denom, 0 ≤ amount spendable denom ∧ amount spendable denom ≤ amount oldCoins denom)
    (hfit : ∀ denom, (amount oldCoins denom).natAbs < 2 ^ maxBitLen)
    (hfitA : ∀ denom, 0 ≤ amount amt denom ∧ (amount amt denom).natAbs < 2 ^ maxBitLen) :
    (∃ diff, spendable.safeSub amt = .ok (diff, true) ∧
      subtractCheck blockTime acc amt = .ok (.error (insufficientFunds spendable amt))) ∨
    ∃ newCoins, oldCoins.sub amt = .ok newCoins ∧ subtractCheck blockTime acc amt = .ok (.ok newCoins) ∧
      Sorted newCoins ∧ (∀ coin ∈ newCoins, 0 < coin.amount) ∧
      ∀ denom, amount amt denom ≤ amount spendable denom := by
  obtain ⟨diff, hasNeg, hsafe, hneg⟩ := Coins.safeSub_ok hsortedS hsortedA fun denom => by
    have := hle denom
    have := hfitA denom
    have := hfit denom
    omega
  have hcheck : subtractCheck blockTime acc amt = (if hasNeg then .ok (.error (insufficientFunds spendable amt))
      else do return .ok (← oldCoins.sub amt)) := by
    rw [subtractCheck, hold, except_ok_bind]
    dsimp only
    rw [hsafe, except_ok_bind]
    rfl
  cases hasNeg with
  | true => exact .inl ⟨diff, hsafe, by rw [hcheck, if_pos rfl]⟩
  | false =>
    have hcovered := hneg.1 rfl
    obtain ⟨newCoins, hsub, hsortedN, hpos⟩ := Coins.sub_ok hsorted hsortedA hfit fun denom =>
      ⟨(hfitA denom).1, (hcovered denom).trans (hle denom).2⟩
    refine .inr ⟨newCoins, hsub, ?_, hsortedN, hpos, hcovered⟩
    rw [hcheck, if_neg Bool.false_ne_true, hsub, except_ok_bind]
    rfl

/-- `subtractCheck` on a sound account, of a valid amount whose coins fit in 255 bits: the error of
the spendable check, or the coins less the amount, valid, with the amount's denominations valid and
what is vesting still covered. -/
theorem subtractCheck_sound {acc : Option Account} {amt : Coins}
    (hacc : ∀ a, acc = some a → SoundAccount a blockTime bound)
    (hbound : ∀ denom, amount (Account.coinsOrEmpty acc) denom ≤ bound denom)
    (hfitB : ∀ denom, (bound denom).natAbs < 2 ^ maxBitLen) (hvalid : amt.isValid = true)
    (hfits : ∀ coin ∈ amt, coin.amount.natAbs < 2 ^ maxBitLen) :
    (∃ err, InsufficientFunds err amt ∧ subtractCheck blockTime acc amt = .ok (.error err)) ∨
    ∃ newCoins, subtractCheck blockTime acc amt = .ok (.ok newCoins) ∧ newCoins.isValid = true ∧
      Coins.denomsValid newCoins = true ∧ Coins.denomsValid amt = true ∧
      ∀ vacc, acc = some (.vesting vacc) → ∀ vestingCoins,
        vacc.getVestingCoins blockTime = .ok vestingCoins → ∀ denom,
        amount vestingCoins denom ≤ amount newCoins denom + amount vacc.bva.delegatedVesting denom := by
  have hold : (Account.coinsOrEmpty acc).isValid = true ∧
      Coins.denomsValid (Account.coinsOrEmpty acc) = true := by
    cases acc with
    | none => exact ⟨rfl, rfl⟩
    | some a => exact ⟨(hacc a rfl).valid, (hacc a rfl).denoms⟩
  have holdPos := Coins.isValid_pos hold.1
  have hsortedA := Coins.isValid_sorted hvalid
  have hfitA : ∀ denom, 0 ≤ amount amt denom ∧ (amount amt denom).natAbs < 2 ^ maxBitLen :=
    fun denom => ⟨Coins.amount_nonneg fun coin hc => (Coins.isValid_pos hvalid coin hc).le,
      hsortedA.amount_natAbs_lt hfits denom⟩
  have hfit : ∀ denom, (amount (Account.coinsOrEmpty acc) denom).natAbs < 2 ^ maxBitLen := by
    intro denom
    have hnonneg : 0 ≤ amount (Account.coinsOrEmpty acc) denom :=
      Coins.amount_nonneg fun coin hc => (holdPos coin hc).le
    have := hbound denom
    have := hfitB denom
    omega
  obtain ⟨spendable, hspendable, hsortedS, hle, hcover⟩ := oldAndSpendable_sound hacc hbound
  rcases subtractCheck_of_spendable hspendable (Coins.isValid_sorted hold.1) hsortedS hsortedA hle hfit
    hfitA with ⟨diff, hsafe, hcheck⟩ | ⟨newCoins, hsub, hcheck, hsortedN, hpos, hcovered⟩
  · exact .inl ⟨_, ⟨spendable, diff, hsafe, rfl⟩, hcheck⟩
  · have hamount := subtractCheck_amount hcheck
    -- the amount is spendable, so each of its denominations is one the account holds
    have hdenomsA : Coins.denomsValid amt = true :=
      Coins.denomsValid_of_amount_le hsortedA (Coins.isValid_pos hvalid) hold.2 fun denom =>
        (hcovered denom).trans (hle denom).2
    have hdenomsN := Coins.denomsValid_of_sub hsub hold.2 hdenomsA
    refine .inr ⟨newCoins, hcheck, Coins.isValid_of_denomsValid hsortedN hpos hdenomsN, hdenomsN,
      hdenomsA, fun vacc hv vestingCoins hV denom => ?_⟩
    · have := hcover vacc hv vestingCoins hV denom
      have := hcovered denom
      rw [hamount]
      omega

/-- `subtractCoins` on a sound state, of a valid amount whose coins fit in 255 bits: the error of the
spendable check with nothing written, or a sound state, with the amount's denominations valid. -/
theorem subtractCoins_sound {s : State} (hs : s.Sound blockTime bound) (addr : AccAddress)
    {amt : Coins} (hvalid : amt.isValid = true)
    (hfits : ∀ coin ∈ amt, coin.amount.natAbs < 2 ^ maxBitLen) :
    (∃ err, InsufficientFunds err amt ∧ subtractCoins blockTime addr amt s = .ok (.error err, s)) ∨
    ∃ newCoins s', subtractCoins blockTime addr amt s = .ok (.ok newCoins, s') ∧
      s'.Sound blockTime bound ∧ Coins.denomsValid amt = true := by
  rw [subtractCoins_eq, if_pos hvalid]
  have hbound : ∀ denom, amount (Account.coinsOrEmpty (s.store.getAccount addr)) denom ≤ bound denom :=
    fun denom => (hs.balance_le_total addr denom).trans (hs.total_le denom)
  rcases subtractCheck_sound (fun a ha => hs.accounts addr a ha) hbound hs.bound_fits hvalid hfits with
    ⟨err, herr, hcheck⟩ | ⟨newCoins, hcheck, hvalidN, hdenomsN, hdenomsA, hcover⟩
  · refine .inl ⟨err, herr, ?_⟩
    rw [hcheck]
    rfl
  · have hamount := subtractCheck_amount hcheck
    refine .inr ⟨newCoins, s.writeCoins addr newCoins, ?_, hs.writeCoins hvalidN hdenomsN hcover
      fun denom => ?_, hdenomsA⟩
    · rw [hcheck]
      simp only [State.afterCheck, hvalidN, if_true]
    · have hbal : s.balance addr denom = amount (Account.coinsOrEmpty (s.store.getAccount addr)) denom :=
        rfl
      have hnonneg : 0 ≤ amount amt denom :=
        Coins.amount_nonneg fun coin hc => (Coins.isValid_pos hvalid coin hc).le
      have := hs.total_le denom
      rw [hamount]
      omega

theorem addCheck_of_pos {oldCoins amt sum : Coins} (hsum : oldCoins.add amt = .ok sum)
    (hpos : ∀ coin ∈ sum, 0 < coin.amount) : addCheck oldCoins amt = .ok (.ok sum) := by
  have hneg : sum.isAnyNegative = false :=
    Coins.isAnyNegative_eq_false.2 fun coin hc => (hpos coin hc).le
  rw [addCheck, hsum, except_ok_bind]
  simp only [hneg, Bool.false_eq_true, if_false]
  rfl

/-- `addCoins` on a sound state, of a valid amount with valid denominations that keeps the totals
within the bound: no error, and a sound state. -/
theorem addCoins_sound {s : State} (hs : s.Sound blockTime bound) (addr : AccAddress) {amt : Coins}
    (hvalid : amt.isValid = true) (hdenoms : Coins.denomsValid amt = true)
    (hroom : ∀ denom, s.total denom + amount amt denom ≤ bound denom) :
    ∃ newCoins s', addCoins addr amt s = .ok (.ok newCoins, s') ∧ s'.Sound blockTime bound := by
  rw [addCoins_eq, if_pos hvalid]
  have hnonneg : ∀ denom, 0 ≤ amount amt denom := fun denom =>
    Coins.amount_nonneg fun coin hc => (Coins.isValid_pos hvalid coin hc).le
  have hbal : ∀ denom, s.balance addr denom = amount (s.coinsOf addr) denom := fun _ => rfl
  -- the recipient holds at most the total, so what it holds after fits in 255 bits
  have hfit : ∀ denom, (amount (s.coinsOf addr) denom + amount amt denom).natAbs < 2 ^ maxBitLen := by
    intro denom
    have := hs.balance_nonneg addr denom
    have := hs.balance_le_total addr denom
    have := hroom denom
    have := hnonneg denom
    have := hs.bound_fits denom
    rw [hbal] at *
    omega
  obtain ⟨sum, hsum, hsorted, hpos⟩ := Coins.add_ok (hs.coinsOf_sorted addr) (Coins.isValid_sorted hvalid)
    hfit fun denom => ⟨hs.balance_nonneg addr denom, hnonneg denom⟩
  have hdenomsS := Coins.denomsValid_of_add hsum (hs.coinsOf_sound addr).2 hdenoms
  have hvalidS := Coins.isValid_of_denomsValid hsorted hpos hdenomsS
  refine ⟨sum, s.writeCoins addr sum, ?_, hs.writeCoins hvalidS hdenomsS
    (fun vacc hv vestingCoins hV denom => ?_) fun denom => ?_⟩
  · rw [addCheck_of_pos hsum hpos]
    simp only [State.afterCheck, hvalidS, if_true]
  · -- what is vesting was covered by the coins before, and the recipient only gains
    obtain ⟨hinv, -⟩ := (hs.accounts addr _ hv).vesting vacc rfl
    obtain ⟨vestingCoins', hV', -, -, hcov⟩ := hinv.vesting
    rw [hV] at hV'
    cases hV'
    have hcoins : amount (s.coinsOf addr) denom = amount vacc.bva.baseAccount.coins denom := by
      simp only [State.coinsOf, hv, Account.coinsOrEmpty, Account.getCoins, Account.baseAccount]
    have := hcov denom
    have := hnonneg denom
    rw [Coins.add_amount hsum denom]
    omega
  · have := hroom denom
    rw [Coins.add_amount hsum denom, hbal]
    omega

/-! ### Sending, and inputs and outputs -/

/-- `sendCoins` of a valid amount that `subtractCoins` refuses returns its error. -/
theorem sendCoins_of_subtractCoins_error {s s' : State} {fromAddr toAddr : AccAddress} {amt : Coins}
    {err : Error} (hvalid : amt.isValid = true)
    (hsub : subtractCoins blockTime fromAddr amt s = .ok (.error err, s')) :
    sendCoins blockTime fromAddr toAddr amt s = .ok (.error err, s') := by
  unfold sendCoins
  simp only [hvalid, Bool.not_true, Bool.false_eq_true, if_false]
  rw [bind_of_eq_ok hsub]
  rfl

/-- `sendCoins` on a sound state, of a valid amount whose coins fit in 255 bits: no panic; an error is
the one of the spendable check, and a success leaves a sound state. -/
theorem sendCoins_sound {s : State} (hs : s.Sound blockTime bound) (fromAddr toAddr : AccAddress)
    {amt : Coins} (hvalid : amt.isValid = true)
    (hfits : ∀ coin ∈ amt, coin.amount.natAbs < 2 ^ maxBitLen) :
    ∃ r s', sendCoins blockTime fromAddr toAddr amt s = .ok (r, s') ∧
      (r = .ok () → s'.Sound blockTime bound) ∧ ∀ err, r = .error err → InsufficientFunds err amt := by
  rcases subtractCoins_sound hs fromAddr hvalid hfits with
    ⟨err, herr, hsub⟩ | ⟨newCoins, s₁, hsub, hs₁, hdenoms⟩
  · refine ⟨.error err, s, sendCoins_of_subtractCoins_error hvalid hsub, nofun, fun err' h => ?_⟩
    cases h
    exact herr
  · -- the sender paid the amount, so the recipient can receive it within the bound
    have htotal := (subtractCoins_moves hsub).total
    obtain ⟨newCoins', s₂, hadd, hs₂⟩ := addCoins_sound hs₁ toAddr hvalid hdenoms fun denom => by
      rw [htotal]
      have := hs.total_le denom
      omega
    refine ⟨.ok (), s₂, ?_, fun _ => hs₂, nofun⟩
    unfold sendCoins
    simp only [hvalid, Bool.not_true, Bool.false_eq_true, if_false]
    rw [bind_of_eq_ok hsub]
    dsimp only
    rw [bind_of_eq_ok hadd]
    rfl

/-- The loop of `inputOutputCoins` over valid inputs whose coins fit in 255 bits, on a sound state: no
panic; an error is the one of the spendable check on one of the inputs, and a success leaves a sound
state, with the denominations of every input valid. -/
theorem subtractInputs_sound {inputs : List Input} {s : State} (hs : s.Sound blockTime bound)
    (hvalid : ∀ input ∈ inputs, input.coins.isValid = true)
    (hfits : ∀ input ∈ inputs, ∀ coin ∈ input.coins, coin.amount.natAbs < 2 ^ maxBitLen) :
    ∃ r s', subtractInputs blockTime inputs s = .ok (r, s') ∧
      (r = .ok () → s'.Sound blockTime bound ∧ ∀ input ∈ inputs, Coins.denomsValid input.coins = true) ∧
      ∀ err, r = .error err → ∃ input ∈ inputs, InsufficientFunds err input.coins := by
  induction inputs generalizing s with
  | nil => exact ⟨.ok (), s, rfl, fun _ => ⟨hs, nofun⟩, nofun⟩
  | cons input inputs ih =>
    rcases subtractCoins_sound hs input.address (hvalid input List.mem_cons_self)
      (hfits input List.mem_cons_self) with ⟨err, herr, hsub⟩ | ⟨newCoins, s₁, hsub, hs₁, hdenoms⟩
    · refine ⟨.error err, s, ?_, nofun, fun err' h => ?_⟩
      · rw [subtractInputs, bind_of_eq_ok hsub]
        rfl
      · cases h
        exact ⟨input, List.mem_cons_self, herr⟩
    · obtain ⟨r, s', hrest, hok, herr⟩ := ih hs₁ (fun i hi => hvalid i (List.mem_cons_of_mem _ hi))
        fun i hi => hfits i (List.mem_cons_of_mem _ hi)
      refine ⟨r, s', ?_, fun h => ?_, fun err h => ?_⟩
      · rw [subtractInputs, bind_of_eq_ok hsub]
        exact hrest
      · obtain ⟨hs', hdenomsRest⟩ := hok h
        exact ⟨hs', List.forall_mem_cons.2 ⟨hdenoms, hdenomsRest⟩⟩
      · obtain ⟨i, hi, herr'⟩ := herr err h
        exact ⟨i, List.mem_cons_of_mem _ hi, herr'⟩

theorem amountAll_nonneg {transfers : List (AccAddress × Coins)}
    (hvalid : ∀ transfer ∈ transfers, transfer.2.isValid = true) (denom : String) :
    0 ≤ amountAll transfers denom :=
  List.sum_nonneg fun x hx => by
    obtain ⟨transfer, ht, rfl⟩ := List.mem_map.1 hx
    exact Coins.amount_nonneg fun coin hc => (Coins.isValid_pos (hvalid transfer ht) coin hc).le

theorem amount_le_amountAll {transfers : List (AccAddress × Coins)}
    (hvalid : ∀ transfer ∈ transfers, transfer.2.isValid = true) {transfer : AccAddress × Coins}
    (ht : transfer ∈ transfers) (denom : String) : amount transfer.2 denom ≤ amountAll transfers denom := by
  refine List.single_le_sum (fun x hx => ?_) _ (List.mem_map_of_mem ht)
  obtain ⟨transfer', ht', rfl⟩ := List.mem_map.1 hx
  exact Coins.amount_nonneg fun coin hc => (Coins.isValid_pos (hvalid transfer' ht') coin hc).le

/-- Valid outputs that name what inputs with valid denominations name have valid denominations. -/
theorem denomsValid_of_amountAll {ins outs : List (AccAddress × Coins)}
    (hdenoms : ∀ transfer ∈ ins, Coins.denomsValid transfer.2 = true)
    (hvalid : ∀ transfer ∈ outs, transfer.2.isValid = true)
    (hsame : ∀ denom, amountAll ins denom = amountAll outs denom) :
    ∀ transfer ∈ outs, Coins.denomsValid transfer.2 = true := by
  intro transfer ht
  rw [Coins.denomsValid_iff]
  intro coin hc
  -- an output holds `coin`, so the outputs and then some input name its denomination
  have hle := amount_le_amountAll hvalid ht coin.denom
  rw [(Coins.isValid_sorted (hvalid transfer ht)).amount_of_mem hc, ← hsame] at hle
  have hpos := Coins.isValid_pos (hvalid transfer ht) coin hc
  obtain ⟨x, hx, hne⟩ := List.exists_mem_ne_zero_of_sum_ne_zero
    (show amountAll ins coin.denom ≠ 0 by omega)
  obtain ⟨transferIn, hin, rfl⟩ := List.mem_map.1 hx
  obtain ⟨coinIn, hcIn, hdenom⟩ := Coins.exists_mem_of_amount_ne_zero hne
  exact hdenom ▸ Coins.denomsValid_iff.1 (hdenoms transferIn hin) coinIn hcIn

/-- The loop of `inputOutputCoins` over valid outputs with valid denominations that keep the totals
within the bound, on a sound state: no error, and a sound state. -/
theorem addOutputs_sound {outputs : List Output} {s : State} (hs : s.Sound blockTime bound)
    (hvalid : ∀ output ∈ outputs, output.coins.isValid = true ∧ Coins.denomsValid output.coins = true)
    (hroom : ∀ denom, s.total denom + amountAll (outputTransfers outputs) denom ≤ bound denom) :
    ∃ s', addOutputs outputs s = .ok (.ok (), s') ∧ s'.Sound blockTime bound := by
  induction outputs generalizing s with
  | nil => exact ⟨s, rfl, hs⟩
  | cons output outputs ih =>
    have hsplit : ∀ denom, amountAll (outputTransfers (output :: outputs)) denom =
        amount output.coins denom + amountAll (outputTransfers outputs) denom := fun denom => by
      simp only [outputTransfers, List.map_cons, amountAll_cons]
    have hrest : ∀ denom, 0 ≤ amountAll (outputTransfers outputs) denom := by
      refine amountAll_nonneg fun transfer ht => ?_
      obtain ⟨o, ho, rfl⟩ := List.mem_map.1 ht
      exact (hvalid o (List.mem_cons_of_mem _ ho)).1
    obtain ⟨hvalidO, hdenomsO⟩ := hvalid output List.mem_cons_self
    obtain ⟨newCoins, s₁, hadd, hs₁⟩ := addCoins_sound hs output.address hvalidO hdenomsO
      fun denom => by
        have := hroom denom
        have := hrest denom
        rw [hsplit] at *
        omega
    have htotal := (addCoins_moves hadd).total
    obtain ⟨s', hrun, hs'⟩ := ih hs₁ (fun o ho => hvalid o (List.mem_cons_of_mem _ ho)) fun denom => by
      have := hroom denom
      rw [htotal]
      rw [hsplit] at this
      omega
    refine ⟨s', ?_, hs'⟩
    rw [addOutputs, bind_of_eq_ok hadd]
    exact hrun

theorem validateBasicOf_eq_none {address : AccAddress} {coins : Coins}
    (h : validateBasicOf address coins = none) : coins.isValid = true ∧ coins.isAllPositive = true := by
  unfold validateBasicOf at h
  split_ifs at h with hlen hvalid hpos
  exact ⟨by simpa using hvalid, by simpa using hpos⟩

theorem validateAndSum_valid {total : Coins} {transfers : List (AccAddress × Coins)} {sum : Coins}
    (h : validateAndSum total transfers = .ok (.ok sum)) :
    ∀ transfer ∈ transfers, transfer.2.isValid = true := by
  induction transfers generalizing total with
  | nil => exact nofun
  | cons transfer transfers ih =>
    obtain ⟨address, coins⟩ := transfer
    unfold validateAndSum at h
    cases hcheck : validateBasicOf address coins with
    | some err =>
      rw [hcheck] at h
      cases h
    | none =>
      rw [hcheck] at h
      obtain ⟨total', -, h⟩ := except_bind_eq_ok.1 h
      exact List.forall_mem_cons.2 ⟨(validateBasicOf_eq_none hcheck).1, ih h⟩

theorem validateInputsOutputs_valid {inputs : List Input} {outputs : List Output}
    (h : validateInputsOutputs inputs outputs = .ok none) :
    (∀ transfer ∈ inputTransfers inputs, transfer.2.isValid = true) ∧
      ∀ transfer ∈ outputTransfers outputs, transfer.2.isValid = true := by
  obtain ⟨totalIn, hin, h⟩ := except_bind_eq_ok.1 h
  rcases totalIn with err | totalIn
  · cases h
  obtain ⟨totalOut, hout, h⟩ := except_bind_eq_ok.1 h
  rcases totalOut with err | totalOut
  · cases h
  exact ⟨validateAndSum_valid hin, validateAndSum_valid hout⟩

/-- `inputOutputCoins` on a sound state, of inputs and outputs that `ValidateInputsOutputs` accepts and
whose inputs' coins fit in 255 bits: no panic; an error is the one of the spendable check on one of the
inputs, and a success leaves a sound state. -/
theorem inputOutputCoins_sound {inputs : List Input} {outputs : List Output} {s : State}
    (hs : s.Sound blockTime bound) (hchecked : validateInputsOutputs inputs outputs = .ok none)
    (hfits : ∀ input ∈ inputs, ∀ coin ∈ input.coins, coin.amount.natAbs < 2 ^ maxBitLen) :
    ∃ r s', inputOutputCoins blockTime inputs outputs s = .ok (r, s') ∧
      (r = .ok () → s'.Sound blockTime bound) ∧
      ∀ err, r = .error err → ∃ input ∈ inputs, InsufficientFunds err input.coins := by
  obtain ⟨hvalidIn, hvalidOut⟩ := validateInputsOutputs_valid hchecked
  obtain ⟨r, s₁, hsub, hok, herr⟩ := subtractInputs_sound hs
    (fun input hi => hvalidIn _ (List.mem_map_of_mem hi)) hfits
  have hrun : inputOutputCoins blockTime inputs outputs s = (match r with
      | .error err => .ok (.error err, s₁)
      | .ok () => addOutputs outputs s₁) := by
    unfold inputOutputCoins
    rw [hchecked, lift_ok_bind]
    dsimp only
    rw [bind_of_eq_ok hsub]
    rcases r with err | ⟨⟩ <;> rfl
  rcases r with err | ⟨⟩
  · exact ⟨.error err, s₁, hrun, nofun, fun err' h => by cases h; exact herr err rfl⟩
  · obtain ⟨hs₁, hdenomsIn⟩ := hok rfl
    -- the outputs name what the inputs name, so their denominations are valid too
    have hdenomsOut := denomsValid_of_amountAll
      (fun transfer ht => by
        obtain ⟨input, hi, rfl⟩ := List.mem_map.1 ht
        exact hdenomsIn input hi)
      hvalidOut (validateInputsOutputs_amountAll hchecked)
    have htotal := (subtractInputs_moves hsub).total
    obtain ⟨s', hadd, hs'⟩ := addOutputs_sound hs₁
      (fun output ho => ⟨hvalidOut _ (List.mem_map_of_mem ho), hdenomsOut _ (List.mem_map_of_mem ho)⟩)
      fun denom => by
        rw [htotal, ← validateInputsOutputs_amountAll hchecked]
        have := hs.total_le denom
        omega
    exact ⟨.ok (), s', hrun.trans hadd, fun _ => hs', nofun⟩

/-! ### The handler -/

/-- The coins a message takes from its inputs each fit in 255 bits, as every `sdk.Int` decoded from a
transaction does. -/
def Msg.AmountsFit (msg : Msg) : Prop :=
  ∀ transfer ∈ msg.inputs, ∀ coin ∈ transfer.2, coin.amount.natAbs < 2 ^ maxBitLen

theorem validateBasic_send_eq_none {fromAddress toAddress : AccAddress} {amount : Coins}
    (h : (Msg.send fromAddress toAddress amount).validateBasic = .ok none) : amount.isValid = true := by
  simp only [Msg.validateBasic] at h
  split_ifs at h with hfrom hto hvalid hpos
  · cases h
  · cases h
  · cases h
  · cases h
  · simpa using hvalid

theorem validateBasic_send_of_valid (fromAddress toAddress : AccAddress) {amount : Coins}
    (hfrom : fromAddress.empty = false) (hto : toAddress.empty = false) (hvalid : amount.isValid = true)
    (hpos : amount.isAllPositive = true) :
    (Msg.send fromAddress toAddress amount).validateBasic = .ok none := by
  simp only [Msg.validateBasic, hfrom, hto, hvalid, hpos, Bool.not_true, Bool.false_eq_true, if_false]
  rfl

theorem validateBasic_multiSend_eq_none {inputs : List Input} {outputs : List Output}
    (h : (Msg.multiSend inputs outputs).validateBasic = .ok none) :
    validateInputsOutputs inputs outputs = .ok none := by
  simp only [Msg.validateBasic] at h
  split_ifs at h with hin hout
  · cases h
  · cases h
  · exact h

/-- The handler on a sound state with `SendEnabled` on, of a message that passes `ValidateBasic` and
whose inputs' coins fit in 255 bits: no panic; an error is the one of the spendable check on one of
its inputs, and a success leaves a sound state. -/
theorem handler_sound {msg : Msg} {s : State} (hs : s.Sound blockTime bound)
    (henabled : s.sendEnabled = true) (hfits : msg.AmountsFit) (hbasic : msg.validateBasic = .ok none) :
    ∃ r s', handler blockTime msg s = .ok (r, s') ∧ (r = .ok () → s'.Sound blockTime bound) ∧
      ∀ err, r = .error err → ∃ transfer ∈ msg.inputs, InsufficientFunds err transfer.2 := by
  cases msg with
  | send fromAddress toAddress amount =>
    have hvalid := validateBasic_send_eq_none hbasic
    obtain ⟨r, s', hsend, hok, herr⟩ := sendCoins_sound hs fromAddress toAddress hvalid (hfits _ List.mem_cons_self)
    refine ⟨r, s', ?_, hok, fun err h => ⟨_, List.mem_cons_self, herr err h⟩⟩
    rw [handler_send_eq blockTime fromAddress toAddress henabled hvalid]
    exact hsend
  | multiSend inputs outputs =>
    obtain ⟨r, s', hrun, hok, herr⟩ := inputOutputCoins_sound hs (validateBasic_multiSend_eq_none hbasic)
      fun input hi => hfits _ (List.mem_map_of_mem hi)
    refine ⟨r, s', ?_, hok, fun err h => ?_⟩
    · rw [handler_multiSend_eq blockTime inputs outputs henabled]
      exact hrun
    · obtain ⟨input, hi, herr'⟩ := herr err h
      exact ⟨_, List.mem_map_of_mem hi, herr'⟩

/-- The state with no account is sound for a bound that is not negative and fits in 255 bits. -/
theorem State.sound_empty (sendEnabled : Bool) (blockTime : Int) {bound : String → Int}
    (hnonneg : ∀ denom, 0 ≤ bound denom) (hfits : ∀ denom, (bound denom).natAbs < 2 ^ maxBitLen) :
    (⟨Store.empty, sendEnabled⟩ : State).Sound blockTime bound where
  accounts _ _ h := by simp [Store.getAccount, Store.empty] at h
  total_le denom := by simpa [State.total, Finmap.sumBy, Store.empty] using hnonneg denom
  bound_fits := hfits

end Sound

end CosmosSdk.Bank
