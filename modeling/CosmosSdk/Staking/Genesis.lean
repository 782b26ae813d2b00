import CosmosSdk.Staking.ValStateChange

/-!
# Genesis

`ValidateGenesis` and `InitGenesis` of `genesis.go`.

`ValidateGenesis` checks the parameters, and of the validators only that no two share a consensus
key, that none is both jailed and bonded, and that only an unbonding validator has zero delegator
shares.  It does not compare a validator's tokens with its shares, nor its shares with the
delegations to it: `InitGenesis` writes the validators, delegations, unbonding delegations and
redelegations as they come, each with its indexes and queue entries, then either takes the last
validator powers from an exported state or computes the validator set.  A validator's consensus key
is known here by its address, `consAddress`, as everywhere in the model.
-/

namespace CosmosSdk.Staking

variable {A ε : Type} [LinearOrder A]

/-- `LastValidatorPower`. -/
structure LastValidatorPower (A : Type) where
  address : A
  power : Int

/-- `GenesisState`. -/
structure GenesisState (A : Type) where
  pool : Pool
  params : Params
  lastTotalPower : Int
  lastValidatorPowers : List (LastValidatorPower A)
  validators : List (Validator A)
  delegations : List (Delegation A)
  unbondingDelegations : List (UnbondingDelegation A)
  redelegations : List (Redelegation A)
  exported : Bool

/-- The errors of `ValidateGenesis`, with the values that their texts print. -/
inductive GenesisError (A : Type)
  /-- "duplicate validator in genesis state: moniker %v, address %v" -/
  | duplicateValidator (moniker : String) (address : A)
  /-- "validator is bonded and jailed in genesis state: moniker %v, address %v" -/
  | bondedAndJailed (moniker : String) (address : A)
  /-- "bonded/unbonded genesis validator cannot have zero delegator shares, validator: %v" -/
  | zeroDelegatorShares (validator : Validator A)
  /-- An error of `Params.Validate`, by its text. -/
  | params (msg : String)

/-- `Params.Validate`. -/
def Params.validate (p : Params) : Option String :=
  if p.bondDenom = "" then some "staking parameter BondDenom can't be an empty string"
  else if p.maxValidators = 0 then some "staking parameter MaxValidators must be a positive integer"
  else none

/-- The loop of `validateGenesisStateValidators`; `addrMap` holds the consensus keys seen so far. -/
def validateGenesisStateValidatorsFrom (addrMap : List A) :
    List (Validator A) → Option (GenesisError A)
  | [] => none
  | val :: vals =>
    if val.consAddress ∈ addrMap then
      some (.duplicateValidator val.description.moniker val.consAddress)
    else if val.jailed ∧ val.status = .bonded then
      some (.bondedAndJailed val.description.moniker val.consAddress)
    else if val.delegatorShares.isZero ∧ val.status ≠ .unbonding then some (.zeroDelegatorShares val)
    else validateGenesisStateValidatorsFrom (val.consAddress :: addrMap) vals

/-- `validateGenesisStateValidators`. -/
def validateGenesisStateValidators (validators : List (Validator A)) : Option (GenesisError A) :=
  validateGenesisStateValidatorsFrom [] validators

/-- `ValidateGenesis`. -/
def validateGenesis (data : GenesisState A) : Option (GenesisError A) :=
  match validateGenesisStateValidators data.validators with
  | some err => some err
  | none => data.params.validate.map .params

/-- A validator list passes the check when its consensus keys are new and distinct and each
validator is neither jailed and bonded nor, unless unbonding, without shares. -/
theorem validateGenesisStateValidatorsFrom_eq_none {addrMap : List A} {vals : List (Validator A)} :
    validateGenesisStateValidatorsFrom addrMap vals = none ↔
      (vals.map Validator.consAddress).Nodup ∧
      (∀ val ∈ vals, val.consAddress ∉ addrMap ∧ ¬ (val.jailed ∧ val.status = .bonded) ∧
        ¬ (val.delegatorShares.isZero ∧ val.status ≠ .unbonding)) := by
  induction vals generalizing addrMap with
  | nil => simp [validateGenesisStateValidatorsFrom]
  | cons val vals ih =>
    simp only [validateGenesisStateValidatorsFrom, List.map_cons, List.nodup_cons,
      List.forall_mem_cons, List.mem_map]
    split_ifs with hmem hjail hzero
    · simp [hmem]
    · simp [hjail]
    · simp [hzero]
    · rw [ih]
      simp only [List.mem_cons, not_or]
      constructor
      · rintro ⟨hnodup, hall⟩
        exact ⟨⟨fun ⟨w, hw, he⟩ => (hall w hw).1.1 he, hnodup⟩, ⟨hmem, hjail, hzero⟩,
          fun w hw => ⟨(hall w hw).1.2, (hall w hw).2⟩⟩
      · rintro ⟨⟨hnew, hnodup⟩, -, hall⟩
        exact ⟨hnodup, fun w hw => ⟨⟨fun he => hnew ⟨w, hw, he⟩, (hall w hw).1⟩, (hall w hw).2⟩⟩

namespace Keeper

variable (k : Keeper A ε)

/-- `sdk.ValidatorUpdateDelay`. -/
def validatorUpdateDelay : Int := 1

/-- `SetParams`. -/
def setParams (params : Params) : KeeperM A ε Unit :=
  modifyStore fun st => { st with params := params }

/-- One validator of `InitGenesis`: stored and indexed, announced to the hooks unless the state was
exported, and queued if unbonding. -/
def initGenesisValidator (ctx : Ctx) (exported : Bool) (validator : Validator A) : KeeperM A ε Unit := do
  setValidator validator
  setValidatorByConsAddr validator
  setValidatorByPowerIndex validator
  (if !exported then onRest fun st => k.hooks.afterValidatorCreated ctx st validator.operatorAddress
    else pure ())
  if validator.status = .unbonding then insertValidatorQueue validator

/-- One delegation of `InitGenesis`, between the hooks of a new delegation unless the state was
exported. -/
def initGenesisDelegation (ctx : Ctx) (exported : Bool) (delegation : Delegation A) :
    KeeperM A ε Unit := do
  (if !exported then
      onRest fun st =>
        k.hooks.beforeDelegationCreated ctx st delegation.delegatorAddress delegation.validatorAddress
    else pure ())
  setDelegation delegation
  if !exported then
    onRest fun st =>
      k.hooks.afterDelegationModified ctx st delegation.delegatorAddress delegation.validatorAddress

/-- One unbonding delegation of `InitGenesis`, queued at each entry's completion time. -/
def initGenesisUnbondingDelegation (ubd : UnbondingDelegation A) : KeeperM A ε Unit := do
  setUnbondingDelegation ubd
  ubd.entries.forM fun entry => insertUBDQueue ubd entry.completionTime

/-- One redelegation of `InitGenesis`, queued at each entry's completion time. -/
def initGenesisRedelegation (red : Redelegation A) : KeeperM A ε Unit := do
  setRedelegation red
  red.entries.forM fun entry => insertRedelegationQueue red entry.completionTime

/-- One last validator power of an exported state: recorded, and reported with the validator's
consensus key.  `ABCIValidatorUpdate` computes the validator's power, which can panic, before the
recorded power replaces it. -/
def initGenesisLastValidatorPower (lv : LastValidatorPower A) : KeeperM A ε (ValidatorUpdate A) := do
  setLastValidatorPower lv.address lv.power
  let some validator ← getValidator lv.address | throw (.other "expected validator, not found")
  let _ ← validator.tendermintPower
  return ⟨validator.consAddress, lv.power⟩

/-- `InitGenesis`. -/
def initGenesis (ctx : Ctx) (data : GenesisState A) : KeeperM A ε (List (ValidatorUpdate A)) := do
  -- the writes from genesis.json belong to the block `ValidatorUpdateDelay` before the first
  let ctx := { ctx with height := 1 - validatorUpdateDelay }
  setPool data.pool
  setParams data.params
  setLastTotalPower data.lastTotalPower
  data.validators.forM (k.initGenesisValidator ctx data.exported)
  data.delegations.forM (k.initGenesisDelegation ctx data.exported)
  data.unbondingDelegations.forM initGenesisUnbondingDelegation
  data.redelegations.forM initGenesisRedelegation
  if data.exported then data.lastValidatorPowers.mapM initGenesisLastValidatorPower
  else k.applyAndReturnValidatorSetUpdates ctx

end Keeper

end CosmosSdk.Staking
