import CosmosSdk.Auth.Keeper
import CosmosSdk.Lib.FinmapSum
import CosmosSdk.Lib.StateExcept

/-!
# The bank keeper

`BaseKeeper` and its functions (`x/bank/keeper.go`) over the account store and the `SendEnabled`
parameter.  A function runs in `BankM`: it reads and writes the accounts and panics by `Except`; one that
returns an `sdk.Error` returns `Except Error α` as its value, and its writes before the error stay, as
in the code (`runTx` drops them).  The tags the functions return are not modelled: they are made of
bech32 addresses and nothing here reads them.  Where an error prints an address, its bech32 text is the
parameter `addrString` (the encoding is tendermint's).

`subtractCoins` checks the amount against the account's spendable coins and then subtracts it from its
coins; `addCoins` adds it; both write through `setCoins`, which checks that the new coins are valid and
creates the account if there is none.
-/

namespace CosmosSdk.Bank

open CosmosSdk.Types Auth StateExcept
open Coins (amount)

/-- The state the bank keeper reads and writes: the account store and the `SendEnabled` parameter. -/
structure State where
  store : Auth.Store
  sendEnabled : Bool

/-- A function of the bank keeper. -/
abbrev BankM (α : Type) := StateT State (Except Panic) α

/-- The coins of the account at `addr`, none where there is no account. -/
def State.coinsOf (s : State) (addr : AccAddress) : Coins :=
  Account.coinsOrEmpty (s.store.getAccount addr)

/-- `getAccount`. -/
def getAccount (addr : AccAddress) : BankM (Option Account) := do
  return (← get).store.getAccount addr

/-- `setAccount`. -/
def setAccount (acc : Account) : BankM Unit :=
  modify fun s => { s with store := s.store.setAccount acc }

/-- `AccountKeeper.NewAccountWithAddress`. -/
def newAccountWithAddress (addr : AccAddress) : BankM Account := do
  let (acc, store) ← (← get).store.newAccountWithAddress addr
  modify fun s => { s with store := store }
  pure acc

/-- `getCoins`. -/
def getCoins (addr : AccAddress) : BankM Coins := do
  return (← get).coinsOf addr

/-- `setCoins`: checks the coins, and writes them to the account, created if there is none. -/
def setCoins (addr : AccAddress) (amt : Coins) : BankM (Except Error Unit) := do
  if !amt.isValid then return .error (errInvalidCoins amt.toString)
  let acc ← match ← getAccount addr with
    | some acc => pure acc
    | none => newAccountWithAddress addr
  setAccount (acc.setCoins amt)
  return .ok ()

/-- The error of the checks of `subtractCoins` and `addCoins`. -/
def insufficientFunds (coins amt : Coins) : Error :=
  errInsufficientCoins ("insufficient account funds; " ++ coins.toString ++ " < " ++ amt.toString)

/-- The coins and the spendable coins at the block time of the account `subtractCoins` found, both
empty where it found none. -/
def oldAndSpendable (blockTime : Int) : Option Account → Except Panic (Coins × Coins)
  | none => pure ([], [])
  | some acc => do pure (acc.getCoins, ← acc.spendableCoins blockTime)

theorem oldAndSpendable_fst {blockTime : Int} {acc : Option Account} {oldCoins spendableCoins : Coins}
    (h : oldAndSpendable blockTime acc = .ok (oldCoins, spendableCoins)) :
    oldCoins = Account.coinsOrEmpty acc := by
  cases acc with
  | none =>
    cases h
    rfl
  | some acc =>
    obtain ⟨spendable, -, h⟩ := except_bind_eq_ok.1 h
    cases h
    rfl

/-- The checks of `subtractCoins` on the account it found, and the coins it leaves there. -/
def subtractCheck (blockTime : Int) (acc : Option Account) (amt : Coins) :
    Except Panic (Except Error Coins) := do
  let (oldCoins, spendableCoins) ← oldAndSpendable blockTime acc
  let (_, hasNeg) ← spendableCoins.safeSub amt
  if hasNeg then return .error (insufficientFunds spendableCoins amt)
  -- does not panic once the spendable coins were checked
  return .ok (← oldCoins.sub amt)

/-- `subtractCoins`: the amount must be spendable at the block time. -/
def subtractCoins (blockTime : Int) (addr : AccAddress) (amt : Coins) : BankM (Except Error Coins) := do
  if !amt.isValid then return .error (errInvalidCoins amt.toString)
  match ← subtractCheck blockTime (← getAccount addr) amt with
  | .error err => return .error err
  | .ok newCoins => return (← setCoins addr newCoins).map fun () => newCoins

/-- The check of `addCoins` on the coins it found, and the coins it leaves. -/
def addCheck (oldCoins amt : Coins) : Except Panic (Except Error Coins) := do
  let newCoins ← oldCoins.add amt
  if newCoins.isAnyNegative then return .error (insufficientFunds oldCoins amt)
  return .ok newCoins

/-- `addCoins`. -/
def addCoins (addr : AccAddress) (amt : Coins) : BankM (Except Error Coins) := do
  if !amt.isValid then return .error (errInvalidCoins amt.toString)
  match ← addCheck (← getCoins addr) amt with
  | .error err => return .error err
  | .ok newCoins => return (← setCoins addr newCoins).map fun () => newCoins

/-- `sendCoins`. -/
def sendCoins (blockTime : Int) (fromAddr toAddr : AccAddress) (amt : Coins) :
    BankM (Except Error Unit) := do
  if !amt.isValid then return .error (errInvalidCoins amt.toString)
  match ← subtractCoins blockTime fromAddr amt with
  | .error err => return .error err
  | .ok _ =>
    match ← addCoins toAddr amt with
    | .error err => return .error err
    | .ok _ => return .ok ()

/-- `Input`. -/
structure Input where
  address : AccAddress
  coins : Coins

/-- `Output`. -/
structure Output where
  address : AccAddress
  coins : Coins

/-- `Input.ValidateBasic` and `Output.ValidateBasic`, the same checks; an empty address prints as the
empty string. -/
def validateBasicOf (address : AccAddress) (coins : Coins) : Option Error :=
  if address.length = 0 then some (errInvalidAddress "")
  else if !coins.isValid then some (errInvalidCoins coins.toString)
  else if !coins.isAllPositive then some (errInvalidCoins coins.toString)
  else none

/-- `Input.ValidateBasic`. -/
def Input.validateBasic (input : Input) : Option Error := validateBasicOf input.address input.coins

/-- `Output.ValidateBasic`. -/
def Output.validateBasic (output : Output) : Option Error :=
  validateBasicOf output.address output.coins

/-- The address and the coins of each input. -/
def inputTransfers (inputs : List Input) : List (AccAddress × Coins) :=
  inputs.map fun input => (input.address, input.coins)

/-- The address and the coins of each output. -/
def outputTransfers (outputs : List Output) : List (AccAddress × Coins) :=
  outputs.map fun output => (output.address, output.coins)

/-- A loop of `ValidateInputsOutputs`: each address and its coins checked, and the coins added to the
total. -/
def validateAndSum : Coins → List (AccAddress × Coins) → Except Panic (Except Error Coins)
  | total, [] => pure (.ok total)
  | total, (address, coins) :: rest => do
    if let some err := validateBasicOf address coins then return .error err
    validateAndSum (← total.add coins) rest

/-- `ErrNoInputs`. -/
def errNoInputs : Error := ⟨"bank", 102, "no inputs to send transacction"⟩

/-- `ErrNoOutputs`. -/
def errNoOutputs : Error := ⟨"bank", 102, "no outputs to send transaction"⟩

/-- `ErrInputOutputMismatch`. -/
def errInputOutputMismatch : Error := ⟨"bank", 102, "sum inputs != sum outputs"⟩

/-- `ErrSendDisabled`. -/
def errSendDisabled : Error := ⟨"bank", 101, "send transactions are currently disabled"⟩

/-- `ValidateInputsOutputs`: each input and output valid, and the inputs summing to the outputs. -/
def validateInputsOutputs (inputs : List Input) (outputs : List Output) :
    Except Panic (Option Error) := do
  match ← validateAndSum [] (inputTransfers inputs) with
  | .error err => return some err
  | .ok totalIn =>
    match ← validateAndSum [] (outputTransfers outputs) with
    | .error err => return some err
    | .ok totalOut =>
      if !(← totalIn.isEqual totalOut) then return some errInputOutputMismatch
      return none

/-- The loop of `inputOutputCoins` over the inputs. -/
def subtractInputs (blockTime : Int) : List Input → BankM (Except Error Unit)
  | [] => return .ok ()
  | input :: inputs => do
    match ← subtractCoins blockTime input.address input.coins with
    | .error err => return .error err
    | .ok _ => subtractInputs blockTime inputs

/-- The loop of `inputOutputCoins` over the outputs. -/
def addOutputs : List Output → BankM (Except Error Unit)
  | [] => return .ok ()
  | output :: outputs => do
    match ← addCoins output.address output.coins with
    | .error err => return .error err
    | .ok _ => addOutputs outputs

/-- `inputOutputCoins`: all the inputs are subtracted, then all the outputs added. -/
def inputOutputCoins (blockTime : Int) (inputs : List Input) (outputs : List Output) :
    BankM (Except Error Unit) := do
  if let some err ← validateInputsOutputs inputs outputs then return .error err
  match ← subtractInputs blockTime inputs with
  | .error err => return .error err
  | .ok () => addOutputs outputs

section Delegation

variable (addrString : AccAddress → String)

/-- `trackDelegation`: a vesting account tracks the delegation; a base account pays it from its coins. -/
def trackDelegation (acc : Account) (blockTime : Int) (amt : Coins) : Except Panic Account :=
  match acc with
  | .vesting vacc => do return .vesting (← vacc.trackDelegation blockTime amt)
  | .base _ => do return acc.setCoins (← acc.getCoins.sub amt)

/-- `trackUndelegation`. -/
def trackUndelegation (acc : Account) (amt : Coins) : Except Panic Account :=
  match acc with
  | .vesting vacc => do return .vesting (← vacc.trackUndelegation amt)
  | .base _ => do return acc.setCoins (← acc.getCoins.add amt)

/-- `delegateCoins`: the account's coins must cover the amount; it is tracked as a delegation. -/
def delegateCoins (blockTime : Int) (addr : AccAddress) (amt : Coins) : BankM (Except Error Unit) := do
  if !amt.isValid then return .error (errInvalidCoins amt.toString)
  let some acc ← getAccount addr
    | return .error (errUnknownAddress ("account " ++ addrString addr ++ " does not exist"))
  let oldCoins := acc.getCoins
  let (_, hasNeg) ← oldCoins.safeSub amt
  if hasNeg then return .error (insufficientFunds oldCoins amt)
  setAccount (← trackDelegation acc blockTime amt)
  return .ok ()

/-- `undelegateCoins`: the amount comes back to the account, tracked as an undelegation. -/
def undelegateCoins (addr : AccAddress) (amt : Coins) : BankM (Except Error Unit) := do
  if !amt.isValid then return .error (errInvalidCoins amt.toString)
  let some acc ← getAccount addr
    | return .error (errUnknownAddress ("account " ++ addrString addr ++ " does not exist"))
  setAccount (← trackUndelegation acc amt)
  return .ok ()

end Delegation

namespace BaseKeeper

/-- `BaseSendKeeper.SendCoins`, which checks the amount before `sendCoins` checks it again. -/
def sendCoins (blockTime : Int) (fromAddr toAddr : AccAddress) (amt : Coins) :
    BankM (Except Error Unit) := do
  if !amt.isValid then return .error (errInvalidCoins amt.toString)
  Bank.sendCoins blockTime fromAddr toAddr amt

/-- `BaseKeeper.InputOutputCoins`. -/
def inputOutputCoins (blockTime : Int) (inputs : List Input) (outputs : List Output) :
    BankM (Except Error Unit) :=
  Bank.inputOutputCoins blockTime inputs outputs

end BaseKeeper

/-! ### Balances and what the writes do to them -/

namespace State

/-- What the account at `addr` holds of `denom`. -/
def balance (s : State) (addr : AccAddress) (denom : String) : Int := amount (s.coinsOf addr) denom

/-- What all the accounts hold of `denom` together. -/
def total (s : State) (denom : String) : Int :=
  s.store.accounts.sumBy fun _ acc => amount acc.getCoins denom

/-- What `setCoins` writes: the coins into the account at `addr`, or into a new account there. -/
def writeCoins (s : State) (addr : AccAddress) (amt : Coins) : State :=
  match s.store.getAccount addr with
  | some acc => { s with store := s.store.setAccount (acc.setCoins amt) }
  | none =>
    { s with
      store := ({ s.store with globalAccountNumber := s.store.globalAccountNumber + 1 }).setAccount
        (.base ⟨addr, amt, none, s.store.globalAccountNumber, 0⟩) }

theorem coinsOf_setAccount (s : State) (acc : Account) (addr : AccAddress) :
    ({ s with store := s.store.setAccount acc } : State).coinsOf addr =
      if addr = acc.getAddress then acc.getCoins else s.coinsOf addr := by
  unfold coinsOf
  rw [Store.getAccount_setAccount]
  split_ifs <;> rfl

/-- The summand of the total at an address is the balance there. -/
theorem entryValue_eq_balance (s : State) (addr : AccAddress) (denom : String) :
    s.store.accounts.entryValue (fun _ acc => amount acc.getCoins denom) addr = s.balance addr denom := by
  unfold Finmap.entryValue balance coinsOf Store.getAccount
  cases s.store.accounts.lookup addr <;> rfl

/-- Writing an account moves the total by what it holds now less what the account at its address held. -/
theorem total_setAccount (s : State) (acc : Account) (denom : String) :
    ({ s with store := s.store.setAccount acc } : State).total denom =
      s.total denom - s.balance acc.getAddress denom + amount acc.getCoins denom := by
  rw [total, total, ← entryValue_eq_balance]
  exact Finmap.sumBy_insert _ _ _ _

theorem writeCoins_of_some {s : State} {addr : AccAddress} {acc : Account}
    (hacc : s.store.getAccount addr = some acc) (amt : Coins) :
    s.writeCoins addr amt = { s with store := s.store.setAccount (acc.setCoins amt) } := by
  rw [writeCoins, hacc]

theorem writeCoins_of_none {s : State} {addr : AccAddress} (hacc : s.store.getAccount addr = none)
    (amt : Coins) :
    s.writeCoins addr amt =
      { s with
        store := ({ s.store with globalAccountNumber := s.store.globalAccountNumber + 1 }).setAccount
          (.base ⟨addr, amt, none, s.store.globalAccountNumber, 0⟩) } := by
  rw [writeCoins, hacc]

@[simp] theorem sendEnabled_writeCoins (s : State) (addr : AccAddress) (amt : Coins) :
    (s.writeCoins addr amt).sendEnabled = s.sendEnabled := by
  cases hacc : s.store.getAccount addr with
  | some acc => rw [writeCoins_of_some hacc]
  | none => rw [writeCoins_of_none hacc]

theorem getAccount_writeCoins_of_ne {s : State} {addr a : AccAddress} (amt : Coins) (ha : a ≠ addr) :
    (s.writeCoins addr amt).store.getAccount a = s.store.getAccount a := by
  cases hacc : s.store.getAccount addr with
  | some acc =>
    rw [writeCoins_of_some hacc, Store.getAccount_setAccount, Account.getAddress_setCoins,
      Store.getAccount_address hacc, if_neg ha]
  | none =>
    rw [writeCoins_of_none hacc, Store.getAccount_setAccount]
    exact if_neg ha

theorem getAccount_writeCoins_of_some {s : State} {addr : AccAddress} {acc : Account}
    (hacc : s.store.getAccount addr = some acc) (amt : Coins) :
    (s.writeCoins addr amt).store.getAccount addr = some (acc.setCoins amt) := by
  rw [writeCoins_of_some hacc, Store.getAccount_setAccount, Account.getAddress_setCoins,
    Store.getAccount_address hacc, if_pos rfl]

theorem getAccount_writeCoins_of_none {s : State} {addr : AccAddress}
    (hacc : s.store.getAccount addr = none) (amt : Coins) :
    (s.writeCoins addr amt).store.getAccount addr =
      some (.base ⟨addr, amt, none, s.store.globalAccountNumber, 0⟩) := by
  rw [writeCoins_of_none hacc, Store.getAccount_setAccount]
  exact if_pos rfl

theorem coinsOf_writeCoins (s : State) (addr : AccAddress) (amt : Coins) (a : AccAddress) :
    (s.writeCoins addr amt).coinsOf a = if a = addr then amt else s.coinsOf a := by
  by_cases ha : a = addr
  · subst ha
    rw [if_pos rfl]
    cases hacc : s.store.getAccount a with
    | some acc =>
      rw [writeCoins_of_some hacc, coinsOf_setAccount, Account.getAddress_setCoins,
        Store.getAccount_address hacc, if_pos rfl, Account.getCoins_setCoins]
    | none =>
      rw [writeCoins_of_none hacc]
      simp only [coinsOf, Store.getAccount_setAccount, Account.getAddress, Account.baseAccount,
        if_true]
      rfl
  · rw [if_neg ha]
    unfold coinsOf
    rw [getAccount_writeCoins_of_ne amt ha]

theorem balance_writeCoins (s : State) (addr : AccAddress) (amt : Coins) (a : AccAddress)
    (denom : String) :
    (s.writeCoins addr amt).balance a denom = if a = addr then amount amt denom else s.balance a denom := by
  unfold balance
  rw [coinsOf_writeCoins]
  split_ifs <;> rfl

/-- `setCoins` moves the total by the new coins less the old. -/
theorem total_writeCoins (s : State) (addr : AccAddress) (amt : Coins) (denom : String) :
    (s.writeCoins addr amt).total denom = s.total denom - s.balance addr denom + amount amt denom := by
  cases hacc : s.store.getAccount addr with
  | some acc =>
    rw [writeCoins_of_some hacc, total_setAccount, Account.getAddress_setCoins,
      Store.getAccount_address hacc, Account.getCoins_setCoins]
  | none =>
    rw [writeCoins_of_none hacc]
    -- moving the account number on leaves the accounts, so the total, as they were
    exact total_setAccount ({ s with store := { s.store with
      globalAccountNumber := s.store.globalAccountNumber + 1 } })
      (.base ⟨addr, amt, none, s.store.globalAccountNumber, 0⟩) denom

end State

/-! ### One spec lemma per function -/

theorem getAccount_eq_ok {addr : AccAddress} {s s' : State} {acc : Option Account} :
    getAccount addr s = .ok (acc, s') ↔ acc = s.store.getAccount addr ∧ s' = s := by
  simp only [getAccount, bind_eq_ok, get_eq_ok, pure_eq_ok]
  constructor
  · rintro ⟨_, _, ⟨rfl, rfl⟩, rfl, rfl⟩
    exact ⟨rfl, rfl⟩
  · rintro ⟨rfl, rfl⟩
    exact ⟨_, _, ⟨rfl, rfl⟩, rfl, rfl⟩

theorem getCoins_eq_ok {addr : AccAddress} {s s' : State} {coins : Coins} :
    getCoins addr s = .ok (coins, s') ↔ coins = s.coinsOf addr ∧ s' = s := by
  simp only [getCoins, bind_eq_ok, get_eq_ok, pure_eq_ok]
  constructor
  · rintro ⟨_, _, ⟨rfl, rfl⟩, rfl, rfl⟩
    exact ⟨rfl, rfl⟩
  · rintro ⟨rfl, rfl⟩
    exact ⟨_, _, ⟨rfl, rfl⟩, rfl, rfl⟩

/-- How `subtractCoins` and `addCoins` end after their checks: a panic or an error of the check
changes nothing, and the coins the check leaves are written by `setCoins`. -/
def State.afterCheck (s : State) (addr : AccAddress) :
    Except Panic (Except Error Coins) → Except Panic (Except Error Coins × State)
  | .error p => .error p
  | .ok (.error err) => .ok (.error err, s)
  | .ok (.ok newCoins) =>
    .ok (if newCoins.isValid then (.ok newCoins, s.writeCoins addr newCoins)
      else (.error (errInvalidCoins newCoins.toString), s))

/-! ### One spec lemma per function -/

theorem getAccount_bind {α : Type} (addr : AccAddress) (f : Option Account → BankM α) (s : State) :
    (getAccount addr >>= f) s = f (s.store.getAccount addr) s := rfl

theorem getCoins_bind {α : Type} (addr : AccAddress) (f : Coins → BankM α) (s : State) :
    (getCoins addr >>= f) s = f (s.coinsOf addr) s := rfl

/-- `setCoins` writes valid coins and refuses others, changing nothing. -/
theorem setCoins_eq (addr : AccAddress) (amt : Coins) (s : State) :
    setCoins addr amt s = .ok (if amt.isValid then (.ok (), s.writeCoins addr amt)
      else (.error (errInvalidCoins amt.toString), s)) := by
  unfold setCoins
  cases hvalid : amt.isValid with
  | false => rfl
  | true =>
    simp only [Bool.not_true, Bool.false_eq_true, if_false, if_true]
    rw [getAccount_bind]
    cases hacc : s.store.getAccount addr with
    | some acc =>
      rw [State.writeCoins_of_some hacc]
      rfl
    | none =>
      rw [State.writeCoins_of_none hacc]
      rfl

/-- The common end of `subtractCoins` and `addCoins`: the check's result written by `setCoins`. -/
theorem checkThenSet_eq (addr : AccAddress) (check : Except Panic (Except Error Coins)) (s : State) :
    ((liftM check : BankM (Except Error Coins)) >>= fun r => match r with
      | .error err => pure (.error err)
      | .ok newCoins => do return (← setCoins addr newCoins).map fun () => newCoins) s =
      s.afterCheck addr check := by
  cases check with
  | error p => exact lift_error_bind
  | ok r =>
    rw [lift_ok_bind]
    cases r with
    | error err => rfl
    | ok newCoins =>
      dsimp only
      cases hvalid : newCoins.isValid with
      | false =>
        rw [bind_of_eq_ok (by rw [setCoins_eq, hvalid])]
        simp only [State.afterCheck, hvalid]
        rfl
      | true =>
        rw [bind_of_eq_ok (by rw [setCoins_eq, hvalid])]
        simp only [State.afterCheck, hvalid]
        rfl

/-- `subtractCoins`: its checks on the account at `addr`, then `setCoins`. -/
theorem subtractCoins_eq (blockTime : Int) (addr : AccAddress) (amt : Coins) (s : State) :
    subtractCoins blockTime addr amt s =
      if amt.isValid then s.afterCheck addr (subtractCheck blockTime (s.store.getAccount addr) amt)
      else .ok (.error (errInvalidCoins amt.toString), s) := by
  unfold subtractCoins
  cases amt.isValid with
  | false => rfl
  | true =>
    simp only [Bool.not_true, Bool.false_eq_true, if_false, if_true]
    rw [getAccount_bind]
    exact checkThenSet_eq addr _ s

/-- `addCoins`: its check on the coins at `addr`, then `setCoins`. -/
theorem addCoins_eq (addr : AccAddress) (amt : Coins) (s : State) :
    addCoins addr amt s =
      if amt.isValid then s.afterCheck addr (addCheck (s.coinsOf addr) amt)
      else .ok (.error (errInvalidCoins amt.toString), s) := by
  unfold addCoins
  cases amt.isValid with
  | false => rfl
  | true =>
    simp only [Bool.not_true, Bool.false_eq_true, if_false, if_true]
    rw [getCoins_bind]
    exact checkThenSet_eq addr _ s

theorem State.afterCheck_eq_ok {s s' : State} {addr : AccAddress}
    {check : Except Panic (Except Error Coins)} {r : Except Error Coins}
    (h : s.afterCheck addr check = .ok (r, s')) :
    (∃ newCoins, check = .ok (.ok newCoins) ∧ newCoins.isValid = true ∧ r = .ok newCoins ∧
      s' = s.writeCoins addr newCoins) ∨ (∃ err, r = .error err ∧ s' = s) := by
  rcases check with p | err | newCoins
  · cases h
  · cases h
    exact .inr ⟨err, rfl, rfl⟩
  · cases hvalid : newCoins.isValid
    · simp only [State.afterCheck, hvalid, Bool.false_eq_true, if_false, Except.ok.injEq,
        Prod.mk.injEq] at h
      exact .inr ⟨_, h.1.symm, h.2.symm⟩
    · simp only [State.afterCheck, hvalid, if_true, Except.ok.injEq, Prod.mk.injEq] at h
      exact .inl ⟨newCoins, rfl, hvalid, h.1.symm, h.2.symm⟩

theorem subtractCheck_amount {blockTime : Int} {acc : Option Account} {amt newCoins : Coins}
    (h : subtractCheck blockTime acc amt = .ok (.ok newCoins)) (denom : String) :
    amount newCoins denom = amount (Account.coinsOrEmpty acc) denom - amount amt denom := by
  obtain ⟨⟨oldCoins, spendableCoins⟩, hcoins, h⟩ := except_bind_eq_ok.1 h
  obtain ⟨⟨diff, hasNeg⟩, -, h⟩ := except_bind_eq_ok.1 h
  cases hasNeg with
  | true => cases h
  | false =>
    obtain ⟨rest, hsub, h⟩ := except_bind_eq_ok.1 h
    cases h
    rw [(Coins.sub_amount hsub denom).1, oldAndSpendable_fst hcoins]

theorem addCheck_amount {oldCoins amt newCoins : Coins} (h : addCheck oldCoins amt = .ok (.ok newCoins))
    (denom : String) : amount newCoins denom = amount oldCoins denom + amount amt denom := by
  obtain ⟨sum, hsum, h⟩ := except_bind_eq_ok.1 h
  cases hneg : sum.isAnyNegative with
  | true =>
    rw [hneg] at h
    cases h
  | false =>
    rw [hneg] at h
    cases h
    exact Coins.add_amount hsum denom

/-! ### What a successful run moves -/

/-- The balances of all accounts are valid coins. -/
def State.BalancesValid (s : State) : Prop := ∀ addr, (s.coinsOf addr).isValid = true

/-- `s'` is `s` with `delta a d` more of `d` at each address `a` and `net d` more in all, the
parameter kept, and the balances valid if they were. -/
structure Moves (s s' : State) (delta : AccAddress → String → Int) (net : String → Int) : Prop where
  balance : ∀ addr denom, s'.balance addr denom = s.balance addr denom + delta addr denom
  total : ∀ denom, s'.total denom = s.total denom + net denom
  valid : s.BalancesValid → s'.BalancesValid
  sendEnabled : s'.sendEnabled = s.sendEnabled

namespace Moves

variable {s s₁ s₂ : State} {delta delta₁ delta₂ : AccAddress → String → Int}
  {net net₁ net₂ : String → Int}

theorem refl (s : State) : Moves s s (fun _ _ => 0) fun _ => 0 :=
  ⟨fun _ _ => (add_zero _).symm, fun _ => (add_zero _).symm, id, rfl⟩

theorem trans (h₁ : Moves s s₁ delta₁ net₁) (h₂ : Moves s₁ s₂ delta₂ net₂) :
    Moves s s₂ (fun addr denom => delta₁ addr denom + delta₂ addr denom)
      fun denom => net₁ denom + net₂ denom where
  balance addr denom := by rw [h₂.balance, h₁.balance, add_assoc]
  total denom := by rw [h₂.total, h₁.total, add_assoc]
  valid hs := h₂.valid (h₁.valid hs)
  sendEnabled := h₂.sendEnabled.trans h₁.sendEnabled

theorem congr (h : Moves s s₁ delta net) {delta' : AccAddress → String → Int}
    {net' : String → Int} (hdelta : ∀ addr denom, delta addr denom = delta' addr denom)
    (hnet : ∀ denom, net denom = net' denom) : Moves s s₁ delta' net' where
  balance addr denom := by rw [h.balance, hdelta]
  total denom := by rw [h.total, hnet]
  valid := h.valid
  sendEnabled := h.sendEnabled

end Moves

/-- `setCoins` of valid coins moves the difference with the old coins. -/
theorem moves_writeCoins (s : State) (addr : AccAddress) {amt : Coins} (hvalid : amt.isValid = true) :
    Moves s (s.writeCoins addr amt)
      (fun a denom => if a = addr then amount amt denom - s.balance addr denom else 0)
      fun denom => amount amt denom - s.balance addr denom where
  balance a denom := by
    rw [State.balance_writeCoins]
    split_ifs with ha
    · rw [ha]
      ring
    · ring
  total denom := by
    rw [State.total_writeCoins]
    ring
  valid hs a := by
    rw [State.coinsOf_writeCoins]
    split_ifs
    · exact hvalid
    · exact hs a
  sendEnabled := State.sendEnabled_writeCoins s addr amt

/-- What a check followed by `setCoins` moves when it succeeds: what the check computes, less the old
coins. -/
theorem moves_afterCheck {s s' : State} {addr : AccAddress} {check : Except Panic (Except Error Coins)}
    {newCoins : Coins} {delta : String → Int}
    (h : s.afterCheck addr check = .ok (.ok newCoins, s'))
    (hcheck : ∀ newCoins, check = .ok (.ok newCoins) →
      ∀ denom, amount newCoins denom = s.balance addr denom + delta denom) :
    Moves s s' (fun a denom => if a = addr then delta denom else 0) delta := by
  rcases State.afterCheck_eq_ok h with ⟨newCoins, hc, hvalid, hr, rfl⟩ | ⟨err, hr, -⟩
  · refine (moves_writeCoins s addr hvalid).congr (fun a denom => ?_) fun denom => ?_
    · split_ifs
      · rw [hcheck newCoins hc]
        ring
      · rfl
    · rw [hcheck newCoins hc]
      ring
  · cases hr

theorem subtractCoins_moves {blockTime : Int} {addr : AccAddress} {amt newCoins : Coins}
    {s s' : State} (h : subtractCoins blockTime addr amt s = .ok (.ok newCoins, s')) :
    Moves s s' (fun a denom => if a = addr then -amount amt denom else 0) fun denom => -amount amt denom := by
  rw [subtractCoins_eq] at h
  split_ifs at h
  · refine moves_afterCheck h fun newCoins hcheck denom => ?_
    rw [subtractCheck_amount hcheck]
    unfold State.balance State.coinsOf
    ring
  · cases h

theorem addCoins_moves {addr : AccAddress} {amt newCoins : Coins} {s s' : State}
    (h : addCoins addr amt s = .ok (.ok newCoins, s')) :
    Moves s s' (fun a denom => if a = addr then amount amt denom else 0) fun denom => amount amt denom := by
  rw [addCoins_eq] at h
  split_ifs at h
  · refine moves_afterCheck h fun newCoins hcheck denom => ?_
    rw [addCheck_amount hcheck]
    rfl
  · cases h

/-! ### Sending, and inputs and outputs -/

/-- What the transfers name of `denom` at `addr`. -/
def amountAt (transfers : List (AccAddress × Coins)) (addr : AccAddress) (denom : String) : Int :=
  ((transfers.filter fun transfer => transfer.1 = addr).map fun transfer => amount transfer.2 denom).sum

/-- What the transfers name of `denom` in all. -/
def amountAll (transfers : List (AccAddress × Coins)) (denom : String) : Int :=
  (transfers.map fun transfer => amount transfer.2 denom).sum

@[simp] theorem amountAt_nil (addr : AccAddress) (denom : String) : amountAt [] addr denom = 0 := rfl

@[simp] theorem amountAll_nil (denom : String) : amountAll [] denom = 0 := rfl

theorem amountAt_cons (transfer : AccAddress × Coins) (transfers : List (AccAddress × Coins))
    (addr : AccAddress) (denom : String) :
    amountAt (transfer :: transfers) addr denom =
      (if addr = transfer.1 then amount transfer.2 denom else 0) + amountAt transfers addr denom := by
  unfold amountAt
  by_cases h : transfer.1 = addr
  · rw [List.filter_cons_of_pos (by simpa using h), List.map_cons, List.sum_cons, if_pos h.symm]
  · rw [List.filter_cons_of_neg (by simpa using h), if_neg (Ne.symm h), zero_add]

theorem amountAll_cons (transfer : AccAddress × Coins) (transfers : List (AccAddress × Coins))
    (denom : String) : amountAll (transfer :: transfers) denom = amount transfer.2 denom + amountAll transfers denom := by
  simp [amountAll]

theorem sendCoins_moves {blockTime : Int} {fromAddr toAddr : AccAddress} {amt : Coins} {s s' : State}
    (h : sendCoins blockTime fromAddr toAddr amt s = .ok (.ok (), s')) :
    Moves s s' (fun addr denom => amountAt [(toAddr, amt)] addr denom - amountAt [(fromAddr, amt)] addr denom)
      fun _ => 0 := by
  unfold sendCoins at h
  split at h
  · cases h
  rw [bind_eq_ok] at h
  obtain ⟨sub, s₁, h₁, h⟩ := h
  rcases sub with err | newCoins
  · cases h
  rw [bind_eq_ok] at h
  obtain ⟨add, s₂, h₂, h⟩ := h
  rcases add with err | newCoins'
  · cases h
  obtain ⟨-, rfl⟩ := pure_eq_ok.1 h
  refine ((subtractCoins_moves h₁).trans (addCoins_moves h₂)).congr (fun addr denom => ?_) fun denom => ?_
  · simp only [amountAt_cons, amountAt_nil]
    split_ifs <;> ring
  · ring

/-- A `subtractCoins` that returns an error writes nothing. -/
theorem subtractCoins_of_error {blockTime : Int} {addr : AccAddress} {amt : Coins} {err : Error}
    {s s' : State} (h : subtractCoins blockTime addr amt s = .ok (.error err, s')) : s' = s := by
  rw [subtractCoins_eq] at h
  split_ifs at h
  · rcases State.afterCheck_eq_ok h with ⟨_, -, -, hr, -⟩ | ⟨_, -, hs⟩
    · cases hr
    · exact hs
  · cases h
    rfl

/-- An `addCoins` that returns an error writes nothing. -/
theorem addCoins_of_error {addr : AccAddress} {amt : Coins} {err : Error} {s s' : State}
    (h : addCoins addr amt s = .ok (.error err, s')) : s' = s := by
  rw [addCoins_eq] at h
  split_ifs at h
  · rcases State.afterCheck_eq_ok h with ⟨_, -, -, hr, -⟩ | ⟨_, -, hs⟩
    · cases hr
    · exact hs
  · cases h
    rfl

/-- A `sendCoins` that returns an error leaves every account but the sender's as it was: the sender's
coins may have been written before `addCoins` refused the recipient's. -/
theorem sendCoins_error_balance {blockTime : Int} {fromAddr toAddr : AccAddress} {amt : Coins}
    {err : Error} {s s' : State} (h : sendCoins blockTime fromAddr toAddr amt s = .ok (.error err, s'))
    {a : AccAddress} (ha : a ≠ fromAddr) (denom : String) : s'.balance a denom = s.balance a denom := by
  unfold sendCoins at h
  split at h
  · cases h
    rfl
  rw [bind_eq_ok] at h
  obtain ⟨sub, s₁, h₁, h⟩ := h
  rcases sub with err₁ | newCoins
  · -- refused by `subtractCoins`
    obtain ⟨-, rfl⟩ := pure_eq_ok.1 h
    rw [subtractCoins_of_error h₁]
  rw [bind_eq_ok] at h
  obtain ⟨add, s₂, h₂, h⟩ := h
  rcases add with err₂ | newCoins'
  · -- refused by `addCoins`, after the sender's coins were written
    obtain ⟨-, rfl⟩ := pure_eq_ok.1 h
    rw [addCoins_of_error h₂, (subtractCoins_moves h₁).balance, if_neg ha, add_zero]
  · cases (pure_eq_ok.1 h).1

namespace BaseKeeper

theorem sendCoins_moves {blockTime : Int} {fromAddr toAddr : AccAddress} {amt : Coins} {s s' : State}
    (h : BaseKeeper.sendCoins blockTime fromAddr toAddr amt s = .ok (.ok (), s')) :
    Moves s s' (fun addr denom => amountAt [(toAddr, amt)] addr denom - amountAt [(fromAddr, amt)] addr denom)
      fun _ => 0 := by
  unfold BaseKeeper.sendCoins at h
  split at h
  · cases h
  · exact Bank.sendCoins_moves h

theorem sendCoins_error_balance {blockTime : Int} {fromAddr toAddr : AccAddress} {amt : Coins}
    {err : Error} {s s' : State} (h : BaseKeeper.sendCoins blockTime fromAddr toAddr amt s = .ok (.error err, s'))
    {a : AccAddress} (ha : a ≠ fromAddr) (denom : String) : s'.balance a denom = s.balance a denom := by
  unfold BaseKeeper.sendCoins at h
  split at h
  · cases h
    rfl
  · exact Bank.sendCoins_error_balance h ha denom

end BaseKeeper

theorem subtractInputs_moves {blockTime : Int} {inputs : List Input} {s s' : State}
    (h : subtractInputs blockTime inputs s = .ok (.ok (), s')) :
    Moves s s' (fun addr denom => -amountAt (inputTransfers inputs) addr denom)
      fun denom => -amountAll (inputTransfers inputs) denom := by
  induction inputs generalizing s with
  | nil =>
    obtain ⟨-, rfl⟩ := pure_eq_ok.1 h
    exact (Moves.refl s).congr (fun _ _ => by simp [inputTransfers]) fun _ => by simp [inputTransfers]
  | cons input inputs ih =>
    unfold subtractInputs at h
    rw [bind_eq_ok] at h
    obtain ⟨sub, s₁, h₁, h⟩ := h
    rcases sub with err | newCoins
    · cases h
    refine ((subtractCoins_moves h₁).trans (ih h)).congr (fun addr denom => ?_) fun denom => ?_
    · simp only [inputTransfers, List.map_cons, amountAt_cons]
      split_ifs <;> ring
    · simp only [inputTransfers, List.map_cons, amountAll_cons]
      ring

theorem addOutputs_moves {outputs : List Output} {s s' : State}
    (h : addOutputs outputs s = .ok (.ok (), s')) :
    Moves s s' (fun addr denom => amountAt (outputTransfers outputs) addr denom)
      fun denom => amountAll (outputTransfers outputs) denom := by
  induction outputs generalizing s with
  | nil =>
    obtain ⟨-, rfl⟩ := pure_eq_ok.1 h
    exact (Moves.refl s).congr (fun _ _ => by simp [outputTransfers]) fun _ => by simp [outputTransfers]
  | cons output outputs ih =>
    unfold addOutputs at h
    rw [bind_eq_ok] at h
    obtain ⟨add, s₁, h₁, h⟩ := h
    rcases add with err | newCoins
    · cases h
    refine ((addCoins_moves h₁).trans (ih h)).congr (fun addr denom => ?_) fun denom => ?_
    · simp only [outputTransfers, List.map_cons, amountAt_cons]
    · simp only [outputTransfers, List.map_cons, amountAll_cons]

theorem validateAndSum_amount {total : Coins} {transfers : List (AccAddress × Coins)} {sum : Coins}
    (h : validateAndSum total transfers = .ok (.ok sum)) (denom : String) :
    amount sum denom = amount total denom + amountAll transfers denom := by
  induction transfers generalizing total with
  | nil =>
    cases h
    simp
  | cons transfer transfers ih =>
    obtain ⟨address, coins⟩ := transfer
    unfold validateAndSum at h
    split at h
    · cases h
    obtain ⟨total', htotal, h⟩ := except_bind_eq_ok.1 h
    rw [ih h, Coins.add_amount htotal, amountAll_cons]
    ring

/-- Inputs and outputs that `ValidateInputsOutputs` accepts name the same amount of each
denomination. -/
theorem validateInputsOutputs_amountAll {inputs : List Input} {outputs : List Output}
    (h : validateInputsOutputs inputs outputs = .ok none) (denom : String) :
    amountAll (inputTransfers inputs) denom = amountAll (outputTransfers outputs) denom := by
  obtain ⟨totalIn, hin, h⟩ := except_bind_eq_ok.1 h
  rcases totalIn with err | totalIn
  · cases h
  obtain ⟨totalOut, hout, h⟩ := except_bind_eq_ok.1 h
  rcases totalOut with err | totalOut
  · cases h
  obtain ⟨same, hsame, h⟩ := except_bind_eq_ok.1 h
  cases same with
  | false => cases h
  | true =>
    have hin' := validateAndSum_amount hin denom
    have hout' := validateAndSum_amount hout denom
    rw [Coins.amount_nil, zero_add] at hin' hout'
    rw [← hin', ← hout']
    exact Coins.amount_eq_of_isEqual hsame denom

theorem inputOutputCoins_moves {blockTime : Int} {inputs : List Input} {outputs : List Output}
    {s s' : State} (h : inputOutputCoins blockTime inputs outputs s = .ok (.ok (), s')) :
    Moves s s' (fun addr denom =>
      amountAt (outputTransfers outputs) addr denom - amountAt (inputTransfers inputs) addr denom)
      fun _ => 0 := by
  unfold inputOutputCoins at h
  rw [lift_bind_eq_ok] at h
  obtain ⟨checked, hchecked, h⟩ := h
  rcases checked with _ | err
  swap
  · cases h
  dsimp only at h
  rw [bind_eq_ok] at h
  obtain ⟨sub, s₁, h₁, h⟩ := h
  rcases sub with err | _
  · cases h
  refine ((subtractInputs_moves h₁).trans (addOutputs_moves h)).congr (fun addr denom => ?_)
    fun denom => ?_
  · ring
  · rw [validateInputsOutputs_amountAll hchecked]
    ring

end CosmosSdk.Bank
