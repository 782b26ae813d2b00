import CosmosSdk.Staking.Keeper

/-!
# Delegating, unbonding and redelegating

The delegation methods of `keeper/delegation.go`: `Delegate`, `unbond`, `Undelegate` and
`CompleteUnbonding`, `BeginRedelegation` and `CompleteRedelegation`.  Each returns its `sdk.Error` as
a value: the writes made before an error stay, and it is the transaction around the message that
drops them.

`unbond` is where shares leave a validator: the delegation loses the shares, the operator's own
validator is jailed when its self-delegation falls below its minimum, the validator gives back
`RemoveDelShares` worth of tokens, and an unbonded validator left without shares is removed.
-/

namespace CosmosSdk.Staking.Keeper

variable {A ε : Type} [LinearOrder A] (k : Keeper A ε)

/-- `Delegate`: bond `bondAmt` tokens of `delAddr` to `validator`, taking them from the account when
`subtractAccount` holds.  Returns the shares issued. -/
def delegate (ctx : Ctx) (delAddr : A) (bondAmt : Int) (validator : Validator A)
    (subtractAccount : Bool) : KeeperM A ε (Except Error Dec) := do
  if validator.invalidExRate then return .error errDelegatorShareExRateInvalid
  let found ← getDelegation delAddr validator.operatorAddress
  let delegation := found.getD ⟨delAddr, validator.operatorAddress, Dec.zero⟩
  (match found with
    | some _ =>
      onRest fun st => k.hooks.beforeDelegationSharesModified ctx st delAddr validator.operatorAddress
    | none => onRest fun st => k.hooks.beforeDelegationCreated ctx st delAddr validator.operatorAddress)
  -- the error of the bank keeper, when the account pays
  let bankErr ← (if subtractAccount then do
      let params ← getParams
      let coin ← newCoin bondAmt
      onRest fun _ => k.bankKeeper.delegateCoins ctx delegation.delegatorAddress params.bondDenom coin
    else pure none)
  if let some err := bankErr then return .error err
  let (validator, newShares) ← addValidatorTokensAndShares validator bondAmt
  let shares ← delegation.shares.add newShares
  let delegation := { delegation with shares := shares }
  setDelegation delegation
  onRest fun st =>
    k.hooks.afterDelegationModified ctx st delegation.delegatorAddress delegation.validatorAddress
  return .ok newShares

/-- `unbond`: take `shares` off the delegation of `delAddr` to `valAddr`.  Returns the tokens the
validator gives back. -/
def unbond (ctx : Ctx) (delAddr valAddr : A) (shares : Dec) : KeeperM A ε (Except Error Int) := do
  let some delegation ← getDelegation delAddr valAddr | return .error errNoDelegatorForAddress
  onRest fun st => k.hooks.beforeDelegationSharesModified ctx st delAddr valAddr
  if delegation.shares.lt shares then
    return .error (errNotEnoughDelegationShares delegation.shares.toString)
  let some validator ← getValidator valAddr | return .error errNoValidatorFound
  let remaining ← delegation.shares.sub shares
  let delegation := { delegation with shares := remaining }
  -- the operator's own validator is jailed once its self-delegation is below the minimum; the
  -- conditions are checked in the code's order, so `ShareTokens` runs only for the operator
  let validator ← (if delegation.delegatorAddress = validator.operatorAddress ∧ !validator.jailed then do
      let worth ← validator.shareTokens delegation.shares
      let selfTokens ← worth.truncateInt
      if selfTokens < validator.minSelfDelegation then
        jailValidator validator
        mustGetValidator validator.operatorAddress
      else pure validator
    else pure validator)
  (if delegation.shares.isZero then
    k.removeDelegation ctx delegation
  else do
    setDelegation delegation
    onRest fun st =>
      k.hooks.afterDelegationModified ctx st delegation.delegatorAddress delegation.validatorAddress)
  let (validator, amount) ← removeValidatorTokensAndShares validator shares
  (if validator.delegatorShares.isZero ∧ validator.status = .unbonded then
    k.removeValidator ctx validator.operatorAddress
  else pure ())
  return .ok amount

/-- `getBeginInfo`: when the tokens unbonded from `valSrcAddr` mature, at which height the unbonding
counts as begun, and whether they are free at once.  An unbonded validator gives the zero time. -/
def getBeginInfo (ctx : Ctx) (valSrcAddr : A) : KeeperM A ε (Int × Int × Bool) := do
  match ← getValidator valSrcAddr with
  | some { status := .unbonded, .. } => pure (0, 0, true)
  | some { status := .unbonding, unbondingCompletionTime, unbondingHeight, .. } =>
    pure (unbondingCompletionTime, unbondingHeight, false)
  | _ => pure (ctx.time + (← getParams).unbondingTime, ctx.height, false)

/-- `Undelegate`: unbond, then pay out at once or queue an unbonding entry.  Returns the completion
time. -/
def undelegate (ctx : Ctx) (delAddr valAddr : A) (sharesAmount : Dec) :
    KeeperM A ε (Except Error Int) := do
  let (completionTime, height, completeNow) ← getBeginInfo ctx valAddr
  match ← k.unbond ctx delAddr valAddr sharesAmount with
  | .error err => return .error err
  | .ok returnAmount =>
    let params ← getParams
    let balance ← newCoin returnAmount
    if completeNow then
      if balance ≠ 0 then
        match ← onRest fun _ => k.bankKeeper.undelegateCoins ctx delAddr params.bondDenom balance with
        | some err => return .error err
        | none => pure ()
      return .ok completionTime
    if ← hasMaxUnbondingDelegationEntries delAddr valAddr then
      return .error errMaxUnbondingDelegationEntries
    let ubd ← setUnbondingDelegationEntry delAddr valAddr height completionTime returnAmount
    insertUBDQueue ubd completionTime
    return .ok completionTime

/-- The loop of `CompleteUnbonding`: mature entries are paid out and dropped, the others kept.  An
error of the bank keeper ends the loop. -/
def completeUnbondingEntries (ctx : Ctx) (delAddr : A) :
    List UnbondingDelegationEntry → KeeperM A ε (Except Error (List UnbondingDelegationEntry))
  | [] => pure (.ok [])
  | entry :: entries => do
    if entry.isMature ctx.time then
      if entry.balance ≠ 0 then
        let params ← getParams
        let coin ← newCoin entry.balance
        match ← onRest fun _ => k.bankKeeper.undelegateCoins ctx delAddr params.bondDenom coin with
        | some err => return .error err
        | none => pure ()
      completeUnbondingEntries ctx delAddr entries
    else
      return (← completeUnbondingEntries ctx delAddr entries).map (entry :: ·)

/-- `CompleteUnbonding`: the record is written back only when the loop ends without error. -/
def completeUnbonding (ctx : Ctx) (delAddr valAddr : A) : KeeperM A ε (Option Error) := do
  let some ubd ← getUnbondingDelegation delAddr valAddr | return some errNoUnbondingDelegation
  match ← k.completeUnbondingEntries ctx ubd.delegatorAddress ubd.entries with
  | .error err => return some err
  | .ok entries =>
    let ubd := { ubd with entries := entries }
    if entries.isEmpty then removeUnbondingDelegation ubd else setUnbondingDelegation ubd
    return none

/-- `BeginRedelegation`: unbond from the source and delegate the tokens to the destination, keeping
a redelegation entry unless the source is unbonded.  Returns the completion time. -/
def beginRedelegation (ctx : Ctx) (delAddr valSrcAddr valDstAddr : A) (sharesAmount : Dec) :
    KeeperM A ε (Except Error Int) := do
  if valSrcAddr = valDstAddr then return .error errSelfRedelegation
  if ← hasReceivingRedelegation delAddr valSrcAddr then return .error errTransitiveRedelegation
  if ← hasMaxRedelegationEntries delAddr valSrcAddr valDstAddr then
    return .error errMaxRedelegationEntries
  match ← k.unbond ctx delAddr valSrcAddr sharesAmount with
  | .error err => return .error err
  | .ok returnAmount =>
    if returnAmount = 0 then return .error errVerySmallRedelegation
    let some dstValidator ← getValidator valDstAddr | return .error errBadRedelegationDst
    match ← k.delegate ctx delAddr returnAmount dstValidator false with
    | .error err => return .error err
    | .ok sharesCreated =>
      let (completionTime, height, completeNow) ← getBeginInfo ctx valSrcAddr
      if completeNow then return .ok completionTime
      let red ← setRedelegationEntry delAddr valSrcAddr valDstAddr height completionTime
        returnAmount sharesCreated
      insertRedelegationQueue red completionTime
      return .ok completionTime

/-- `CompleteRedelegation`: drop the mature entries. -/
def completeRedelegation (ctx : Ctx) (delAddr valSrcAddr valDstAddr : A) :
    KeeperM A ε (Option Error) := do
  let some red ← getRedelegation delAddr valSrcAddr valDstAddr | return some errNoRedelegation
  let red := { red with entries := red.entries.filter fun entry => !entry.isMature ctx.time }
  if red.entries.isEmpty then removeRedelegation red else setRedelegation red
  return none

end CosmosSdk.Staking.Keeper
