import CosmosSdk.Staking.Types
import CosmosSdk.Store.Types
import CosmosSdk.Lib.StateExcept
import Mathlib.Data.Prod.Lex

/-!
# The staking keeper's store

The staking store (`x/staking/keeper`) as one typed map per key prefix of `keeper/key.go`: validators
by operator address, the consensus-address and power indexes, delegations, unbonding delegations,
redelegations, the three time-sliced queues, the last validator powers, the last total power, the
pool and the parameters.  A delegation, unbonding delegation or redelegation is stored under the key
made of its own addresses (`SetDelegation`, `SetUnbondingDelegation`, `SetRedelegation`), so the
maps keep the shares or entries under those addresses.  The secondary indexes of unbonding
delegations and redelegations by validator hold no data of their own: iterating one is iterating the
primary map's keys in the index's order.

A keeper method runs in `KeeperM`: it reads and writes the staking store and the rest of the
application (`ε`: accounts and the state the hooks keep), and panics by `Except`.  A method that
returns an `sdk.Error` returns `Except Error α` as its value; its writes before the error stay, as in
the code.  The bank keeper and the staking hooks are parameters (`Keeper`): they read the staking
store and change only `ε`.

This module holds the store, its accessors, and the validator-level methods of `keeper/validator.go`
and `keeper/val_state_change.go` that the delegation, slashing and end-block code call.
-/

namespace CosmosSdk.Staking

/-- `GetValidatorsByPowerIndexKey`: the validator's tokens as a big-endian `uint64`, then its operator
address with every byte inverted. -/
structure PowerKey (A : Type) where
  power : Nat
  operator : A
  deriving DecidableEq

namespace PowerKey

variable {A : Type} [LinearOrder A]

/-- The byte order of power keys: by power, then by operator address reversed (the inverted bytes). -/
def rank (k : PowerKey A) : Lex (Nat × Aᵒᵈ) := toLex (k.power, OrderDual.toDual k.operator)

omit [LinearOrder A] in
theorem rank_injective : Function.Injective (rank (A := A)) := by
  rintro ⟨p, o⟩ ⟨p', o'⟩ h
  simp only [rank, toLex_inj, Prod.mk.injEq, OrderDual.toDual_inj] at h
  rw [h.1, h.2]

instance : LinearOrder (PowerKey A) := LinearOrder.lift' rank rank_injective

end PowerKey

/-- The staking store. -/
structure Store (A : Type) where
  validators : MemDB A (Validator A)
  validatorsByConsAddr : MemDB A A
  validatorsByPower : MemDB (PowerKey A) A
  delegations : MemDB (A × A) Dec
  unbondingDelegations : MemDB (A × A) (List UnbondingDelegationEntry)
  redelegations : MemDB (A × A × A) (List RedelegationEntry)
  ubdQueue : MemDB Int (List (A × A))
  redelegationQueue : MemDB Int (List (A × A × A))
  validatorQueue : MemDB Int (List A)
  lastValidatorPowers : MemDB A Int
  lastTotalPower : Int
  pool : Pool
  params : Params

/-- The application state the staking keeper works on: its own store and the rest. -/
structure State (A ε : Type) where
  store : Store A
  rest : ε

/-- The block a keeper method runs in: `ctx.BlockHeight()` and `ctx.BlockHeader().Time`. -/
structure Ctx where
  height : Int
  time : Int

/-- A keeper method. -/
abbrev KeeperM (A ε α : Type) := StateT (State A ε) (Except Panic) α

/-- `types.BankKeeper`: moving bond-denomination coins of an account into and out of delegation. -/
structure BankKeeper (A ε : Type) where
  delegateCoins : Ctx → A → String → Int → StateT ε (Except Panic) (Option Error)
  undelegateCoins : Ctx → A → String → Int → StateT ε (Except Panic) (Option Error)

/-- `sdk.StakingHooks`: each hook reads the staking store and updates the rest of the state. -/
structure StakingHooks (A ε : Type) where
  afterValidatorCreated : Ctx → Store A → A → StateT ε (Except Panic) Unit
  beforeValidatorModified : Ctx → Store A → A → StateT ε (Except Panic) Unit
  afterValidatorRemoved : Ctx → Store A → A → A → StateT ε (Except Panic) Unit
  afterValidatorBonded : Ctx → Store A → A → A → StateT ε (Except Panic) Unit
  afterValidatorBeginUnbonding : Ctx → Store A → A → A → StateT ε (Except Panic) Unit
  beforeDelegationCreated : Ctx → Store A → A → A → StateT ε (Except Panic) Unit
  beforeDelegationSharesModified : Ctx → Store A → A → A → StateT ε (Except Panic) Unit
  beforeDelegationRemoved : Ctx → Store A → A → A → StateT ε (Except Panic) Unit
  afterDelegationModified : Ctx → Store A → A → A → StateT ε (Except Panic) Unit
  beforeValidatorSlashed : Ctx → Store A → A → Dec → StateT ε (Except Panic) Unit

/-- The hooks of a keeper that `NewKeeper` made and `SetHooks` never set: with `k.hooks == nil` each
call does nothing. -/
def StakingHooks.nil {A ε : Type} : StakingHooks A ε where
  afterValidatorCreated _ _ _ := pure ()
  beforeValidatorModified _ _ _ := pure ()
  afterValidatorRemoved _ _ _ _ := pure ()
  afterValidatorBonded _ _ _ _ := pure ()
  afterValidatorBeginUnbonding _ _ _ _ := pure ()
  beforeDelegationCreated _ _ _ _ := pure ()
  beforeDelegationSharesModified _ _ _ _ := pure ()
  beforeDelegationRemoved _ _ _ _ := pure ()
  afterDelegationModified _ _ _ _ := pure ()
  beforeValidatorSlashed _ _ _ _ := pure ()

/-- `Keeper`: the bank keeper and the hooks the staking keeper calls. -/
structure Keeper (A ε : Type) where
  bankKeeper : BankKeeper A ε
  hooks : StakingHooks A ε

/-- `sdk.NewCoin` of the bond denomination: a negative amount panics. -/
def newCoin (amount : Int) : Except Panic Int :=
  if amount < 0 then .error (.other "negative coin amount: ") else .ok amount

/-- `abci.ValidatorUpdate`: the consensus key, by its address, and the new power. -/
structure ValidatorUpdate (A : Type) where
  pubKey : A
  power : Int
  deriving DecidableEq

namespace Keeper

variable {A ε : Type} [LinearOrder A]

/-! ### Store access -/

/-- Run a computation on the rest of the state, with the staking store as it is. -/
def onRest {α : Type} (f : Store A → StateT ε (Except Panic) α) : KeeperM A ε α :=
  fun s => do
    let (a, rest) ← f s.store s.rest
    pure (a, { s with rest := rest })

/-- Update the staking store. -/
def modifyStore (f : Store A → Store A) : KeeperM A ε Unit :=
  modify fun s => { s with store := f s.store }

/-- Read the staking store. -/
def getStore : KeeperM A ε (Store A) := do
  return (← get).store

/-- `GetValidator`. -/
def getValidator (addr : A) : KeeperM A ε (Option (Validator A)) := do
  return (← getStore).validators.lookup addr

/-- `mustGetValidator`. -/
def mustGetValidator (addr : A) : KeeperM A ε (Validator A) := do
  match ← getValidator addr with
  | some validator => pure validator
  | none => throw (.other "validator record not found for address: ")

/-- `GetValidatorByConsAddr`. -/
def getValidatorByConsAddr (consAddr : A) : KeeperM A ε (Option (Validator A)) := do
  match (← getStore).validatorsByConsAddr.lookup consAddr with
  | some opAddr => getValidator opAddr
  | none => pure none

/-- `mustGetValidatorByConsAddr`. -/
def mustGetValidatorByConsAddr (consAddr : A) : KeeperM A ε (Validator A) := do
  match ← getValidatorByConsAddr consAddr with
  | some validator => pure validator
  | none => throw (.other "validator with consensus-Address not found")

/-- `SetValidator`. -/
def setValidator (validator : Validator A) : KeeperM A ε Unit :=
  modifyStore fun st =>
    { st with validators := st.validators.insert validator.operatorAddress validator }

/-- `SetValidatorByConsAddr`. -/
def setValidatorByConsAddr (validator : Validator A) : KeeperM A ε Unit :=
  modifyStore fun st =>
    { st with
      validatorsByConsAddr := st.validatorsByConsAddr.insert validator.consAddress
        validator.operatorAddress }

/-- `getValidatorPowerRank`: `Tokens.Int64()`, stored as a `uint64`. -/
def getValidatorPowerRank (validator : Validator A) : Except Panic (PowerKey A) := do
  let tendermintPower ← SdkInt.int64 validator.tokens
  pure ⟨(tendermintPower % 2 ^ 64).toNat, validator.operatorAddress⟩

/-- `SetValidatorByPowerIndex`: a jailed validator is not indexed. -/
def setValidatorByPowerIndex (validator : Validator A) : KeeperM A ε Unit := do
  if validator.jailed then return
  let key ← getValidatorPowerRank validator
  modifyStore fun st =>
    { st with validatorsByPower := st.validatorsByPower.insert key validator.operatorAddress }

/-- `DeleteValidatorByPowerIndex`. -/
def deleteValidatorByPowerIndex (validator : Validator A) : KeeperM A ε Unit := do
  let key ← getValidatorPowerRank validator
  modifyStore fun st => { st with validatorsByPower := st.validatorsByPower.erase key }

/-- `SetNewValidatorByPowerIndex`: indexed whether jailed or not. -/
def setNewValidatorByPowerIndex (validator : Validator A) : KeeperM A ε Unit := do
  let key ← getValidatorPowerRank validator
  modifyStore fun st =>
    { st with validatorsByPower := st.validatorsByPower.insert key validator.operatorAddress }

/-- `GetPool`. -/
def getPool : KeeperM A ε Pool := do
  return (← getStore).pool

/-- `SetPool`. -/
def setPool (pool : Pool) : KeeperM A ε Unit :=
  modifyStore fun st => { st with pool := pool }

/-- `GetParams`. -/
def getParams : KeeperM A ε Params := do
  return (← getStore).params

/-- `SetLastValidatorPower`. -/
def setLastValidatorPower (operator : A) (power : Int) : KeeperM A ε Unit :=
  modifyStore fun st =>
    { st with lastValidatorPowers := st.lastValidatorPowers.insert operator power }

/-- `DeleteLastValidatorPower`. -/
def deleteLastValidatorPower (operator : A) : KeeperM A ε Unit :=
  modifyStore fun st => { st with lastValidatorPowers := st.lastValidatorPowers.erase operator }

/-- `SetLastTotalPower`. -/
def setLastTotalPower (power : Int) : KeeperM A ε Unit :=
  modifyStore fun st => { st with lastTotalPower := power }

/-! ### Delegations, unbonding delegations and redelegations -/

/-- `GetDelegation`. -/
def getDelegation (delAddr valAddr : A) : KeeperM A ε (Option (Delegation A)) := do
  return ((← getStore).delegations.lookup (delAddr, valAddr)).map (⟨delAddr, valAddr, ·⟩)

/-- `SetDelegation`. -/
def setDelegation (delegation : Delegation A) : KeeperM A ε Unit :=
  let key := (delegation.delegatorAddress, delegation.validatorAddress)
  modifyStore fun st => { st with delegations := st.delegations.insert key delegation.shares }

/-- `GetUnbondingDelegation`. -/
def getUnbondingDelegation (delAddr valAddr : A) :
    KeeperM A ε (Option (UnbondingDelegation A)) := do
  return ((← getStore).unbondingDelegations.lookup (delAddr, valAddr)).map (⟨delAddr, valAddr, ·⟩)

/-- `GetUnbondingDelegationsFromValidator`: the index is ordered by validator, then delegator. -/
def getUnbondingDelegationsFromValidator (valAddr : A) :
    KeeperM A ε (List (UnbondingDelegation A)) := do
  let ubds := (← getStore).unbondingDelegations
  let delegators := ((ubds.keys.filter (·.2 = valAddr)).image Prod.fst).sort
  return delegators.filterMap fun delAddr =>
    (ubds.lookup (delAddr, valAddr)).map (⟨delAddr, valAddr, ·⟩)

/-- `HasMaxUnbondingDelegationEntries`. -/
def hasMaxUnbondingDelegationEntries (delAddr valAddr : A) : KeeperM A ε Bool := do
  match ← getUnbondingDelegation delAddr valAddr with
  | none => pure false
  | some ubd => return decide ((← getParams).maxEntries ≤ ubd.entries.length)

/-- `SetUnbondingDelegation`. -/
def setUnbondingDelegation (ubd : UnbondingDelegation A) : KeeperM A ε Unit :=
  let key := (ubd.delegatorAddress, ubd.validatorAddress)
  modifyStore fun st =>
    { st with unbondingDelegations := st.unbondingDelegations.insert key ubd.entries }

/-- `RemoveUnbondingDelegation`. -/
def removeUnbondingDelegation (ubd : UnbondingDelegation A) : KeeperM A ε Unit :=
  let key := (ubd.delegatorAddress, ubd.validatorAddress)
  modifyStore fun st => { st with unbondingDelegations := st.unbondingDelegations.erase key }

/-- `SetUnbondingDelegationEntry`: append an entry, or start the record with it. -/
def setUnbondingDelegationEntry (delAddr valAddr : A) (creationHeight minTime balance : Int) :
    KeeperM A ε (UnbondingDelegation A) := do
  let entry := newUnbondingDelegationEntry creationHeight minTime balance
  let ubd := match ← getUnbondingDelegation delAddr valAddr with
    | some ubd => { ubd with entries := ubd.entries ++ [entry] }
    | none => ⟨delAddr, valAddr, [entry]⟩
  setUnbondingDelegation ubd
  pure ubd

/-- `GetUBDQueueTimeSlice`. -/
def getUBDQueueTimeSlice (timestamp : Int) : KeeperM A ε (List (A × A)) := do
  return ((← getStore).ubdQueue.lookup timestamp).getD []

/-- `InsertUBDQueue`. -/
def insertUBDQueue (ubd : UnbondingDelegation A) (completionTime : Int) : KeeperM A ε Unit := do
  let timeSlice ← getUBDQueueTimeSlice completionTime
  let timeSlice := timeSlice ++ [(ubd.delegatorAddress, ubd.validatorAddress)]
  modifyStore fun st => { st with ubdQueue := st.ubdQueue.insert completionTime timeSlice }

/-- `DequeueAllMatureUBDQueue`: every time slice up to the block time, in time order, each deleted
once read.  The block time is the context's. -/
def dequeueAllMatureUBDQueue (ctx : Ctx) : KeeperM A ε (List (A × A)) := do
  let slices := (← getStore).ubdQueue.listing none (some (ctx.time + 1)) true
  modifyStore fun st => { st with ubdQueue := slices.foldl (fun q e => q.erase e.1) st.ubdQueue }
  return slices.flatMap (·.2)

/-- `GetRedelegation`. -/
def getRedelegation (delAddr valSrcAddr valDstAddr : A) :
    KeeperM A ε (Option (Redelegation A)) := do
  return ((← getStore).redelegations.lookup (delAddr, valSrcAddr, valDstAddr)).map
    (⟨delAddr, valSrcAddr, valDstAddr, ·⟩)

/-- `GetRedelegationsFromValidator`: the index is ordered by source validator, delegator, then
destination. -/
def getRedelegationsFromValidator (valAddr : A) : KeeperM A ε (List (Redelegation A)) := do
  let reds := (← getStore).redelegations
  let keys := ((reds.keys.filter (·.2.1 = valAddr)).image fun key => toLex (key.1, key.2.2)).sort
  return keys.filterMap fun key =>
    (reds.lookup ((ofLex key).1, valAddr, (ofLex key).2)).map
      (⟨(ofLex key).1, valAddr, (ofLex key).2, ·⟩)

/-- `HasReceivingRedelegation`: some redelegation of the delegator has this destination. -/
def hasReceivingRedelegation (delAddr valDstAddr : A) : KeeperM A ε Bool := do
  return decide (∃ key ∈ (← getStore).redelegations.keys, key.1 = delAddr ∧ key.2.2 = valDstAddr)

/-- `HasMaxRedelegationEntries`. -/
def hasMaxRedelegationEntries (delAddr valSrcAddr valDstAddr : A) : KeeperM A ε Bool := do
  match ← getRedelegation delAddr valSrcAddr valDstAddr with
  | none => pure false
  | some red => return decide ((← getParams).maxEntries ≤ red.entries.length)

/-- `SetRedelegation`. -/
def setRedelegation (red : Redelegation A) : KeeperM A ε Unit :=
  let key := (red.delegatorAddress, red.validatorSrcAddress, red.validatorDstAddress)
  modifyStore fun st => { st with redelegations := st.redelegations.insert key red.entries }

/-- `RemoveRedelegation`. -/
def removeRedelegation (red : Redelegation A) : KeeperM A ε Unit :=
  let key := (red.delegatorAddress, red.validatorSrcAddress, red.validatorDstAddress)
  modifyStore fun st => { st with redelegations := st.redelegations.erase key }

/-- `SetRedelegationEntry`: append an entry, or start the record with it. -/
def setRedelegationEntry (delAddr valSrcAddr valDstAddr : A) (creationHeight minTime balance : Int)
    (sharesDst : Dec) : KeeperM A ε (Redelegation A) := do
  let entry : RedelegationEntry := ⟨creationHeight, minTime, balance, sharesDst⟩
  let red := match ← getRedelegation delAddr valSrcAddr valDstAddr with
    | some red => { red with entries := red.entries ++ [entry] }
    | none => ⟨delAddr, valSrcAddr, valDstAddr, [entry]⟩
  setRedelegation red
  pure red

/-- `GetRedelegationQueueTimeSlice`. -/
def getRedelegationQueueTimeSlice (timestamp : Int) : KeeperM A ε (List (A × A × A)) := do
  return ((← getStore).redelegationQueue.lookup timestamp).getD []

/-- `InsertRedelegationQueue`. -/
def insertRedelegationQueue (red : Redelegation A) (completionTime : Int) : KeeperM A ε Unit := do
  let timeSlice ← getRedelegationQueueTimeSlice completionTime
  let timeSlice :=
    timeSlice ++ [(red.delegatorAddress, red.validatorSrcAddress, red.validatorDstAddress)]
  modifyStore fun st =>
    { st with redelegationQueue := st.redelegationQueue.insert completionTime timeSlice }

/-- `DequeueAllMatureRedelegationQueue`. -/
def dequeueAllMatureRedelegationQueue (ctx : Ctx) : KeeperM A ε (List (A × A × A)) := do
  let slices := (← getStore).redelegationQueue.listing none (some (ctx.time + 1)) true
  modifyStore fun st =>
    { st with redelegationQueue := slices.foldl (fun q e => q.erase e.1) st.redelegationQueue }
  return slices.flatMap (·.2)

/-! ### Tokens and shares of a validator -/

/-- `AddValidatorTokensAndShares`: the power index entry moves with the tokens. -/
def addValidatorTokensAndShares (validator : Validator A) (tokensToAdd : Int) :
    KeeperM A ε (Validator A × Dec) := do
  deleteValidatorByPowerIndex validator
  let pool ← getPool
  let (validator, pool, addedShares) ← validator.addTokensFromDel pool tokensToAdd
  setValidator validator
  setPool pool
  setValidatorByPowerIndex validator
  pure (validator, addedShares)

/-- `RemoveValidatorTokensAndShares`. -/
def removeValidatorTokensAndShares (validator : Validator A) (sharesToRemove : Dec) :
    KeeperM A ε (Validator A × Int) := do
  deleteValidatorByPowerIndex validator
  let pool ← getPool
  let (validator, pool, removedTokens) ← validator.removeDelShares pool sharesToRemove
  setValidator validator
  setPool pool
  setValidatorByPowerIndex validator
  pure (validator, removedTokens)

/-- `RemoveValidatorTokens`. -/
def removeValidatorTokens (validator : Validator A) (tokensToRemove : Int) :
    KeeperM A ε (Validator A) := do
  deleteValidatorByPowerIndex validator
  let pool ← getPool
  let (validator, pool) ← validator.removeTokens pool tokensToRemove
  setValidator validator
  setPool pool
  setValidatorByPowerIndex validator
  pure validator

/-! ### Validator state changes -/

/-- `jailValidator`. -/
def jailValidator (validator : Validator A) : KeeperM A ε Unit := do
  if validator.jailed then throw (.other "cannot jail already jailed validator, validator: ")
  let validator := { validator with jailed := true }
  setValidator validator
  deleteValidatorByPowerIndex validator

/-- `unjailValidator`. -/
def unjailValidator (validator : Validator A) : KeeperM A ε Unit := do
  if !validator.jailed then throw (.other "cannot unjail already unjailed validator, validator: ")
  let validator := { validator with jailed := false }
  setValidator validator
  setValidatorByPowerIndex validator

/-- `GetValidatorQueueTimeSlice`. -/
def getValidatorQueueTimeSlice (timestamp : Int) : KeeperM A ε (List A) := do
  return ((← getStore).validatorQueue.lookup timestamp).getD []

/-- `InsertValidatorQueue`: append to the time slice of the completion time. -/
def insertValidatorQueue (validator : Validator A) : KeeperM A ε Unit := do
  let timeSlice ← getValidatorQueueTimeSlice validator.unbondingCompletionTime
  let timeSlice := timeSlice ++ [validator.operatorAddress]
  modifyStore fun st => { st with
    validatorQueue := st.validatorQueue.insert validator.unbondingCompletionTime timeSlice }

/-- `DeleteValidatorQueue`: remove the validator from its time slice, and the slice if it empties. -/
def deleteValidatorQueue (validator : Validator A) : KeeperM A ε Unit := do
  let timeSlice ← getValidatorQueueTimeSlice validator.unbondingCompletionTime
  let newTimeSlice := timeSlice.filter (· ≠ validator.operatorAddress)
  if newTimeSlice.isEmpty then
    modifyStore fun st =>
      { st with validatorQueue := st.validatorQueue.erase validator.unbondingCompletionTime }
  else
    modifyStore fun st => { st with
      validatorQueue := st.validatorQueue.insert validator.unbondingCompletionTime newTimeSlice }

/-- `completeUnbondingValidator`. -/
def completeUnbondingValidator (validator : Validator A) : KeeperM A ε (Validator A) := do
  let pool ← getPool
  let (validator, pool) ← validator.updateStatus pool .unbonded
  setPool pool
  setValidator validator
  pure validator

/-- `unbondingToUnbonded`: its panic text names the other transition, as in the code. -/
def unbondingToUnbonded (validator : Validator A) : KeeperM A ε (Validator A) := do
  if validator.status ≠ .unbonding then
    throw (.other "bad state transition unbondingToBonded, validator: ")
  completeUnbondingValidator validator

variable (k : Keeper A ε)

/-- `RemoveDelegation`: the hook runs first. -/
def removeDelegation (ctx : Ctx) (delegation : Delegation A) : KeeperM A ε Unit := do
  onRest fun st =>
    k.hooks.beforeDelegationRemoved ctx st delegation.delegatorAddress delegation.validatorAddress
  let key := (delegation.delegatorAddress, delegation.validatorAddress)
  modifyStore fun st => { st with delegations := st.delegations.erase key }

/-- `RemoveValidator`: only an unbonded validator without tokens may go. -/
def removeValidator (ctx : Ctx) (address : A) : KeeperM A ε Unit := do
  let some validator ← getValidator address | return
  if validator.status ≠ .unbonded then
    throw (.other "cannot call RemoveValidator on bonded or unbonding validators")
  if 0 < validator.tokens then
    throw (.other "attempting to remove a validator which still contains tokens")
  let key ← getValidatorPowerRank validator
  modifyStore fun st =>
    { st with validators := st.validators.erase address,
              validatorsByConsAddr := st.validatorsByConsAddr.erase validator.consAddress,
              validatorsByPower := st.validatorsByPower.erase key }
  onRest fun st => k.hooks.afterValidatorRemoved ctx st validator.consAddress validator.operatorAddress

/-- `bondValidator`. -/
def bondValidator (ctx : Ctx) (validator : Validator A) : KeeperM A ε (Validator A) := do
  deleteValidatorByPowerIndex validator
  let pool ← getPool
  let (validator, pool) ← validator.updateStatus pool .bonded
  setPool pool
  setValidator validator
  setValidatorByPowerIndex validator
  deleteValidatorQueue validator
  onRest fun st => k.hooks.afterValidatorBonded ctx st validator.consAddress validator.operatorAddress
  pure validator

/-- `beginUnbondingValidator`. -/
def beginUnbondingValidator (ctx : Ctx) (validator : Validator A) : KeeperM A ε (Validator A) := do
  let params ← getParams
  deleteValidatorByPowerIndex validator
  if validator.status ≠ .bonded then
    throw (.other "should not already be unbonded or unbonding, validator: ")
  let pool ← getPool
  let (validator, pool) ← validator.updateStatus pool .unbonding
  setPool pool
  let validator := { validator with unbondingCompletionTime := ctx.time + params.unbondingTime,
                                    unbondingHeight := ctx.height }
  setValidator validator
  setValidatorByPowerIndex validator
  insertValidatorQueue validator
  onRest fun st =>
    k.hooks.afterValidatorBeginUnbonding ctx st validator.consAddress validator.operatorAddress
  pure validator

/-- `bondedToUnbonding`. -/
def bondedToUnbonding (ctx : Ctx) (validator : Validator A) : KeeperM A ε (Validator A) := do
  if validator.status ≠ .bonded then
    throw (.other "bad state transition bondedToUnbonding, validator: ")
  k.beginUnbondingValidator ctx validator

/-- `unbondingToBonded`. -/
def unbondingToBonded (ctx : Ctx) (validator : Validator A) : KeeperM A ε (Validator A) := do
  if validator.status ≠ .unbonding then
    throw (.other "bad state transition unbondingToBonded, validator: ")
  k.bondValidator ctx validator

/-- `unbondedToBonded`. -/
def unbondedToBonded (ctx : Ctx) (validator : Validator A) : KeeperM A ε (Validator A) := do
  if validator.status ≠ .unbonded then
    throw (.other "bad state transition unbondedToBonded, validator: ")
  k.bondValidator ctx validator


/-! ### Runs of the accessors -/

section Runs

open StateExcept

variable {α : Type} {s s' : State A ε}

omit [LinearOrder A] in
@[simp] theorem onRest_eq_ok {f : Store A → StateT ε (Except Panic) α} {a : α} :
    onRest f s = .ok (a, s') ↔ ∃ rest, f s.store s.rest = .ok (a, rest) ∧ s' = { s with rest := rest } := by
  unfold onRest
  cases f s.store s.rest with
  | error e => simp [bind, Except.bind]
  | ok p =>
    obtain ⟨b, rest⟩ := p
    simp [bind, Except.bind, pure, Except.pure, eq_comm]

omit [LinearOrder A] in
@[simp] theorem modifyStore_eq_ok {f : Store A → Store A} {u : Unit} :
    modifyStore f s = .ok (u, s') ↔ s' = { s with store := f s.store } := modify_eq_ok

omit [LinearOrder A] in
@[simp] theorem getStore_eq_ok {st : Store A} : getStore s = .ok (st, s') ↔ s.store = st ∧ s = s' := by
  show Except.ok (s.store, s) = _ ↔ _
  simp

@[simp] theorem getValidator_eq_ok {addr : A} {r : Option (Validator A)} :
    getValidator addr s = .ok (r, s') ↔ s.store.validators.lookup addr = r ∧ s = s' := by
  show Except.ok (s.store.validators.lookup addr, s) = _ ↔ _
  simp

@[simp] theorem mustGetValidator_eq_ok {addr : A} {v : Validator A} :
    mustGetValidator addr s = .ok (v, s') ↔ s.store.validators.lookup addr = some v ∧ s = s' := by
  unfold mustGetValidator
  rw [bind_eq_ok]
  cases h : s.store.validators.lookup addr <;> simp [h]

@[simp] theorem getValidatorByConsAddr_eq_ok {consAddr : A} {r : Option (Validator A)} :
    getValidatorByConsAddr consAddr s = .ok (r, s') ↔
      (s.store.validatorsByConsAddr.lookup consAddr).bind s.store.validators.lookup = r ∧ s = s' := by
  unfold getValidatorByConsAddr
  rw [bind_eq_ok]
  cases h : s.store.validatorsByConsAddr.lookup consAddr <;> simp [h]

@[simp] theorem mustGetValidatorByConsAddr_eq_ok {consAddr : A} {v : Validator A} :
    mustGetValidatorByConsAddr consAddr s = .ok (v, s') ↔
      (s.store.validatorsByConsAddr.lookup consAddr).bind s.store.validators.lookup = some v ∧ s = s' := by
  unfold mustGetValidatorByConsAddr
  rw [bind_eq_ok]
  cases h : (s.store.validatorsByConsAddr.lookup consAddr).bind s.store.validators.lookup <;>
    simp [h]

@[simp] theorem setValidator_eq_ok {v : Validator A} {u : Unit} :
    setValidator v s = .ok (u, s') ↔
      s' = { s with store := { s.store with validators := s.store.validators.insert v.operatorAddress v } } :=
  modify_eq_ok

omit [LinearOrder A] in
theorem getValidatorPowerRank_eq_ok {v : Validator A} {key : PowerKey A}
    (h : getValidatorPowerRank v = .ok key) :
    key = ⟨(v.tokens % 2 ^ 64).toNat, v.operatorAddress⟩ := by
  unfold getValidatorPowerRank at h
  obtain ⟨p, hp, h⟩ := except_bind_eq_ok.1 h
  rw [SdkInt.int64_eq_ok hp] at h
  exact (Except.ok.inj h).symm

@[simp] theorem setValidatorByPowerIndex_eq_ok {v : Validator A} {u : Unit} :
    setValidatorByPowerIndex v s = .ok (u, s') ↔
      if v.jailed then s = s' else ∃ key, getValidatorPowerRank v = .ok key ∧
        s' = { s with store := { s.store with
          validatorsByPower := s.store.validatorsByPower.insert key v.operatorAddress } } := by
  unfold setValidatorByPowerIndex
  dsimp only
  split
  · simp
  · simp only [bind_eq_ok, lift_eq_ok, modifyStore_eq_ok]
    constructor
    · rintro ⟨key, _, ⟨hkey, rfl⟩, rfl⟩
      exact ⟨key, hkey, rfl⟩
    · rintro ⟨key, hkey, rfl⟩
      exact ⟨key, s, ⟨hkey, rfl⟩, rfl⟩


omit [LinearOrder A] in
@[simp] theorem getPool_eq_ok {pool : Pool} : getPool s = .ok (pool, s') ↔ s.store.pool = pool ∧ s = s' := by
  show Except.ok (s.store.pool, s) = _ ↔ _
  simp

omit [LinearOrder A] in
@[simp] theorem getParams_eq_ok {params : Params} :
    getParams s = .ok (params, s') ↔ s.store.params = params ∧ s = s' := by
  show Except.ok (s.store.params, s) = _ ↔ _
  simp

@[simp] theorem getDelegation_eq_ok {delAddr valAddr : A} {r : Option (Delegation A)} :
    getDelegation delAddr valAddr s = .ok (r, s') ↔
      (s.store.delegations.lookup (delAddr, valAddr)).map (⟨delAddr, valAddr, ·⟩) = r ∧ s = s' := by
  show Except.ok (_, s) = _ ↔ _
  simp

@[simp] theorem setDelegation_eq_ok {d : Delegation A} {u : Unit} :
    setDelegation d s = .ok (u, s') ↔ s' = { s with store := { s.store with
      delegations := s.store.delegations.insert (d.delegatorAddress, d.validatorAddress) d.shares } } :=
  modify_eq_ok

omit [LinearOrder A] in
@[simp] theorem setPool_eq_ok {pool : Pool} {u : Unit} :
    setPool pool s = .ok (u, s') ↔ s' = { s with store := { s.store with pool := pool } } :=
  modify_eq_ok

theorem deleteValidatorByPowerIndex_eq_ok {v : Validator A} {u : Unit}
    (h : deleteValidatorByPowerIndex v s = .ok (u, s')) : ∃ key, getValidatorPowerRank v = .ok key ∧
      s' = { s with store := { s.store with validatorsByPower := s.store.validatorsByPower.erase key } } := by
  unfold deleteValidatorByPowerIndex at h
  rw [bind_eq_ok] at h
  obtain ⟨key, s₁, h₁, h⟩ := h
  obtain ⟨hkey, rfl⟩ := lift_eq_ok.1 h₁
  exact ⟨key, hkey, modifyStore_eq_ok.1 h⟩

@[simp] theorem getRedelegation_eq_ok {delAddr valSrcAddr valDstAddr : A} {r : Option (Redelegation A)} :
    getRedelegation delAddr valSrcAddr valDstAddr s = .ok (r, s') ↔
      (s.store.redelegations.lookup (delAddr, valSrcAddr, valDstAddr)).map
        (⟨delAddr, valSrcAddr, valDstAddr, ·⟩) = r ∧ s = s' := by
  show Except.ok (_, s) = _ ↔ _
  simp

@[simp] theorem setRedelegation_eq_ok {red : Redelegation A} {u : Unit} :
    setRedelegation red s = .ok (u, s') ↔ s' = { s with store := { s.store with
      redelegations := s.store.redelegations.insert
        (red.delegatorAddress, red.validatorSrcAddress, red.validatorDstAddress) red.entries } } :=
  modify_eq_ok

@[simp] theorem removeRedelegation_eq_ok {red : Redelegation A} {u : Unit} :
    removeRedelegation red s = .ok (u, s') ↔ s' = { s with store := { s.store with
      redelegations := s.store.redelegations.erase
        (red.delegatorAddress, red.validatorSrcAddress, red.validatorDstAddress) } } :=
  modify_eq_ok

end Runs

end Keeper

end CosmosSdk.Staking
