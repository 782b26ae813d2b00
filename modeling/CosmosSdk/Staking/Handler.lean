import CosmosSdk.Staking.Slash
import CosmosSdk.Staking.ValStateChange

/-!
# The staking module as a state machine

The messages of `types/msg.go` with their `ValidateBasic`, the handlers of `handler.go`, the
`EndBlocker`, and `InflateSupply`, through which the mint module adds tokens to the pool.

`Step k s s'` says what can happen to the application between two states: a staking message that a
transaction delivers with success, a call of the slashing module (`Slash`, `Jail`, `Unjail`, with
any arguments), the minting of new tokens, the end of a block, or a change of the rest of the
application alone (bank transfers, fees, the other modules' messages).  A message whose handler
returns an error, or panics, changes nothing: its transaction is dropped whole (`runTx`).
`Reachable k s₀ s` holds of the states that steps reach from `s₀`.
-/

namespace CosmosSdk.Staking

variable {A ε : Type} [LinearOrder A]

/-- `sdk.Coin`. -/
structure Coin where
  denom : String
  amount : Int

/-- `CommissionMsg`. -/
structure CommissionMsg where
  rate : Dec
  maxRate : Dec
  maxChangeRate : Dec
  deriving DecidableEq

/-- The staking messages. -/
inductive Msg (A : Type)
  | createValidator (description : Description) (commission : CommissionMsg)
      (minSelfDelegation : Int) (delegatorAddress validatorAddress pubKey : A) (value : Coin)
  | editValidator (description : Description) (validatorAddress : A) (commissionRate : Option Dec)
      (minSelfDelegation : Option Int)
  | delegate (delegatorAddress validatorAddress : A) (value : Coin)
  | undelegate (delegatorAddress validatorAddress : A) (sharesAmount : Dec)
  | beginRedelegate (delegatorAddress validatorSrcAddress validatorDstAddress : A) (sharesAmount : Dec)

namespace Msg

/-- `ValidateBasic` of each message.  Addresses are byte strings in byte order, so the empty address
that `Empty` tests for is the least one, `⊥`.  `MsgCreateValidator` is also compared with the empty
`CommissionMsg{}`: that compares the pointers of its three `Dec`s with nil, and refuses only a message
decoded without them, which this model, whose `Dec`s are values, does not have; a commission of
three zeros passes. -/
def validateBasic [OrderBot A] : Msg A → Option Error
  | createValidator description _ minSelfDelegation delegatorAddress validatorAddress _ value =>
    if delegatorAddress = ⊥ then some errNilDelegatorAddr
    else if validatorAddress = ⊥ then some errNilValidatorAddr
    else if validatorAddress ≠ delegatorAddress then some errBadValidatorAddr
    else if value.amount ≤ 0 then some errBadDelegationAmount
    else if description = ⟨"", "", "", ""⟩ then
      some (newError codeInvalidInput "description must be included")
    else if minSelfDelegation ≤ 0 then some errMinSelfDelegationInvalid
    else if value.amount < minSelfDelegation then some errSelfDelegationBelowMinimum
    else none
  | editValidator description validatorAddress commissionRate minSelfDelegation =>
    if validatorAddress = ⊥ then some (newError codeInvalidInput "nil validator address")
    else if description = ⟨"", "", "", ""⟩ then
      some (newError codeInvalidInput "transaction must include some information to modify")
    else if minSelfDelegation.any (· ≤ 0) then some errMinSelfDelegationInvalid
    else if commissionRate.any fun rate => rate.gt Dec.one || rate.lt Dec.zero then
      some (newError codeInvalidInput "commission rate must be between 0 and 1, inclusive")
    else none
  | delegate delegatorAddress validatorAddress value =>
    if delegatorAddress = ⊥ then some errNilDelegatorAddr
    else if validatorAddress = ⊥ then some errNilValidatorAddr
    else if value.amount ≤ 0 then some errBadDelegationAmount
    else none
  | undelegate delegatorAddress validatorAddress sharesAmount =>
    if delegatorAddress = ⊥ then some errNilDelegatorAddr
    else if validatorAddress = ⊥ then some errNilValidatorAddr
    else if sharesAmount.lte Dec.zero then some errBadSharesAmount
    else none
  | beginRedelegate delegatorAddress validatorSrcAddress validatorDstAddress sharesAmount =>
    if delegatorAddress = ⊥ then some errNilDelegatorAddr
    else if validatorSrcAddress = ⊥ then some errNilValidatorAddr
    else if validatorDstAddress = ⊥ then some errNilValidatorAddr
    else if sharesAmount.lte Dec.zero then some errBadSharesAmount
    else none

variable [OrderBot A]

/-- A `MsgCreateValidator` that passes `ValidateBasic` delegates a positive amount. -/
theorem validateBasic_createValidator_amount {description : Description} {commission : CommissionMsg}
    {minSelfDelegation : Int} {delegatorAddress validatorAddress pubKey : A} {value : Coin}
    (h : (createValidator description commission minSelfDelegation delegatorAddress validatorAddress
      pubKey value).validateBasic = none) : 0 < value.amount := by
  simp only [validateBasic] at h
  split_ifs at h with _ _ _ hamount
  exact not_le.1 hamount

/-- A `MsgDelegate` that passes `ValidateBasic` delegates a positive amount. -/
theorem validateBasic_delegate_amount {delegatorAddress validatorAddress : A} {value : Coin}
    (h : (delegate delegatorAddress validatorAddress value).validateBasic = none) : 0 < value.amount := by
  simp only [validateBasic] at h
  split_ifs at h with _ _ hamount
  exact not_le.1 hamount

/-- A `MsgUndelegate` that passes `ValidateBasic` takes positive shares. -/
theorem validateBasic_undelegate_shares {delegatorAddress validatorAddress : A} {sharesAmount : Dec}
    (h : (undelegate delegatorAddress validatorAddress sharesAmount).validateBasic = none) :
    0 < sharesAmount.raw := by
  simp only [validateBasic] at h
  split_ifs at h with _ _ hshares
  unfold Dec.lte Dec.zero at hshares
  simpa using hshares

/-- A `MsgBeginRedelegate` that passes `ValidateBasic` moves positive shares. -/
theorem validateBasic_beginRedelegate_shares {delegatorAddress validatorSrcAddress validatorDstAddress : A}
    {sharesAmount : Dec}
    (h : (beginRedelegate delegatorAddress validatorSrcAddress validatorDstAddress
      sharesAmount).validateBasic = none) : 0 < sharesAmount.raw := by
  simp only [validateBasic] at h
  split_ifs at h with _ _ _ hshares
  unfold Dec.lte Dec.zero at hshares
  simpa using hshares

end Msg

namespace Keeper

variable (k : Keeper A ε)

/-- `UpdateValidatorCommission`. -/
def updateValidatorCommission (ctx : Ctx) (validator : Validator A) (newRate : Dec) :
    Except Error Commission :=
  match validator.commission.validateNewRate newRate ctx.time with
  | some err => .error err
  | none => .ok { validator.commission with rate := newRate, updateTime := ctx.time }

/-- `handleMsgCreateValidator`: the validator is stored and indexed, then the self-delegation is
made.  The check of the key type against the consensus parameters is not modelled. -/
def handleMsgCreateValidator (ctx : Ctx) (description : Description) (commission : CommissionMsg)
    (minSelfDelegation : Int) (delegatorAddress validatorAddress pubKey : A) (value : Coin) :
    KeeperM A ε (Except Error Unit) := do
  if (← getValidator validatorAddress).isSome then return .error errValidatorOwnerExists
  if (← getValidatorByConsAddr pubKey).isSome then return .error errValidatorPubKeyExists
  if value.denom ≠ (← getParams).bondDenom then return .error errBadDenom
  if let .error err := description.ensureLength then return .error err
  let commission := newCommissionWithTime commission.rate commission.maxRate
    commission.maxChangeRate ctx.time
  match (Validator.new validatorAddress pubKey description).setInitialCommission commission with
  | .error err => return .error err
  | .ok validator =>
    let validator := { validator with minSelfDelegation := minSelfDelegation }
    setValidator validator
    setValidatorByConsAddr validator
    setNewValidatorByPowerIndex validator
    onRest fun st => k.hooks.afterValidatorCreated ctx st validator.operatorAddress
    match ← k.delegate ctx delegatorAddress value.amount validator true with
    | .error err => return .error err
    | .ok _ => return .ok ()

/-- `handleMsgEditValidator`: the tokens and shares are not touched. -/
def handleMsgEditValidator (ctx : Ctx) (description : Description) (validatorAddress : A)
    (commissionRate : Option Dec) (minSelfDelegation : Option Int) :
    KeeperM A ε (Except Error Unit) := do
  let some validator ← getValidator validatorAddress | return .error errNoValidatorFound
  match validator.description.updateDescription description with
  | .error err => return .error err
  | .ok description =>
    let validator := { validator with description := description }
    let validator ← match commissionRate with
      | none => pure validator
      | some rate =>
        match updateValidatorCommission ctx validator rate with
        | .error err => return .error err
        | .ok commission =>
          onRest fun st => k.hooks.beforeValidatorModified ctx st validatorAddress
          pure { validator with commission := commission }
    let validator ← match minSelfDelegation with
      | none => pure validator
      | some newMin =>
        if newMin ≤ validator.minSelfDelegation then return .error errMinSelfDelegationDecreased
        if validator.tokens < newMin then return .error errSelfDelegationBelowMinimum
        pure { validator with minSelfDelegation := newMin }
    setValidator validator
    return .ok ()

/-- `handleMsgDelegate`. -/
def handleMsgDelegate (ctx : Ctx) (delegatorAddress validatorAddress : A) (value : Coin) :
    KeeperM A ε (Except Error Unit) := do
  let some validator ← getValidator validatorAddress | return .error errNoValidatorFound
  if value.denom ≠ (← getParams).bondDenom then return .error errBadDenom
  return (← k.delegate ctx delegatorAddress value.amount validator true).map fun _ => ()

/-- `handleMsgUndelegate`. -/
def handleMsgUndelegate (ctx : Ctx) (delegatorAddress validatorAddress : A) (sharesAmount : Dec) :
    KeeperM A ε (Except Error Unit) := do
  return (← k.undelegate ctx delegatorAddress validatorAddress sharesAmount).map fun _ => ()

/-- `handleMsgBeginRedelegate`. -/
def handleMsgBeginRedelegate (ctx : Ctx) (delegatorAddress validatorSrcAddress validatorDstAddress : A)
    (sharesAmount : Dec) : KeeperM A ε (Except Error Unit) := do
  return (← k.beginRedelegation ctx delegatorAddress validatorSrcAddress validatorDstAddress
    sharesAmount).map fun _ => ()

/-- `NewHandler`: the handler of each message. -/
def handler (ctx : Ctx) : Msg A → KeeperM A ε (Except Error Unit)
  | .createValidator description commission minSelfDelegation delegatorAddress validatorAddress
      pubKey value =>
    k.handleMsgCreateValidator ctx description commission minSelfDelegation delegatorAddress
      validatorAddress pubKey value
  | .editValidator description validatorAddress commissionRate minSelfDelegation =>
    k.handleMsgEditValidator ctx description validatorAddress commissionRate minSelfDelegation
  | .delegate delegatorAddress validatorAddress value =>
    k.handleMsgDelegate ctx delegatorAddress validatorAddress value
  | .undelegate delegatorAddress validatorAddress sharesAmount =>
    k.handleMsgUndelegate ctx delegatorAddress validatorAddress sharesAmount
  | .beginRedelegate delegatorAddress validatorSrcAddress validatorDstAddress sharesAmount =>
    k.handleMsgBeginRedelegate ctx delegatorAddress validatorSrcAddress validatorDstAddress
      sharesAmount

/-- `EndBlocker`: the validator-set updates, then the mature validators, unbonding delegations and
redelegations.  An unbonding or redelegation that fails to complete is skipped. -/
def endBlocker (ctx : Ctx) : KeeperM A ε (List (ValidatorUpdate A)) := do
  let validatorUpdates ← k.applyAndReturnValidatorSetUpdates ctx
  k.unbondAllMatureValidatorQueue ctx
  let matureUnbonds ← dequeueAllMatureUBDQueue ctx
  matureUnbonds.forM fun (delAddr, valAddr) => do
    let _ ← k.completeUnbonding ctx delAddr valAddr
  let matureRedelegations ← dequeueAllMatureRedelegationQueue ctx
  matureRedelegations.forM fun (delAddr, valSrcAddr, valDstAddr) => do
    let _ ← completeRedelegation ctx delAddr valSrcAddr valDstAddr
  return validatorUpdates

/-- `InflateSupply`. -/
def inflateSupply (newTokens : Int) : KeeperM A ε Unit := do
  let pool ← getPool
  let notBondedTokens ← SdkInt.add pool.notBondedTokens newTokens
  setPool { pool with notBondedTokens := notBondedTokens }

end Keeper

/-- One step of the application, as the staking store sees it. -/
inductive Step [OrderBot A] (k : Keeper A ε) : State A ε → State A ε → Prop
  /-- A staking message that passes `ValidateBasic` and whose handler succeeds. -/
  | msg {s s' : State A ε} (ctx : Ctx) (msg : Msg A) :
      msg.validateBasic = none → k.handler ctx msg s = .ok (.ok (), s') → Step k s s'
  /-- The slashing module slashes a validator for an infraction. -/
  | slash {s s' : State A ε} (ctx : Ctx) (consAddr : A) (infractionHeight power : Int)
      (slashFactor : Dec) : k.slash ctx consAddr infractionHeight power slashFactor s = .ok ((), s') →
      Step k s s'
  | jail {s s' : State A ε} (consAddr : A) : Keeper.jail consAddr s = .ok ((), s') → Step k s s'
  | unjail {s s' : State A ε} (consAddr : A) : Keeper.unjail consAddr s = .ok ((), s') →
      Step k s s'
  /-- The mint module mints `newTokens`, a coin amount and so not negative. -/
  | inflateSupply {s s' : State A ε} (newTokens : Int) :
      0 ≤ newTokens → Keeper.inflateSupply newTokens s = .ok ((), s') → Step k s s'
  | endBlock {s s' : State A ε} (ctx : Ctx) (updates : List (ValidatorUpdate A)) :
      k.endBlocker ctx s = .ok (updates, s') → Step k s s'
  /-- Any other module changes its own state. -/
  | rest (s : State A ε) (e : ε) : Step k s { s with rest := e }

/-- The states that steps reach from `s₀`. -/
inductive Reachable [OrderBot A] (k : Keeper A ε) (s₀ : State A ε) : State A ε → Prop
  | init : Reachable k s₀ s₀
  | step {s s' : State A ε} : Reachable k s₀ s → Step k s s' → Reachable k s₀ s'

end CosmosSdk.Staking
