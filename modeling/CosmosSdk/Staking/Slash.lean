import CosmosSdk.Staking.Delegation

/-!
# Slashing

`Slash`, `Jail` and `Unjail` of `keeper/slash.go`, which the slashing module calls.  `Slash` burns
`slashFactor` of the stake a validator had at the infraction: first from the unbonding entries and
the redelegations that began at or after the infraction height (`slashUnbondingDelegation`,
`slashRedelegation`, which unbonds the redelegated shares from the destination validator), then,
for what is left, from the validator's own tokens.  Burnt tokens leave the not-bonded pool.
-/

namespace CosmosSdk.Staking.Keeper

variable {A ε : Type} [LinearOrder A] (k : Keeper A ε)

/-- `TokensFromTendermintPower`. -/
def tokensFromTendermintPower (power : Int) : Except Panic Int := SdkInt.mul power powerReduction

/-- The loop of `slashUnbondingDelegation` over the entries: `done` holds the entries already seen,
as the code keeps them in the record it writes back after each slashed entry.  Returns the amount
the entries should have been slashed, which counts the slash of entries with too little balance in
full. -/
def slashUnbondingEntries (ctx : Ctx) (delAddr valAddr : A) (infractionHeight : Int)
    (slashFactor : Dec) (done : List UnbondingDelegationEntry) :
    List UnbondingDelegationEntry → Int → KeeperM A ε Int
  | [], totalSlashAmount => pure totalSlashAmount
  | entry :: entries, totalSlashAmount => do
    -- entries begun before the infraction, and mature ones, are not slashed
    if entry.creationHeight < infractionHeight ∨ entry.isMature ctx.time then
      slashUnbondingEntries ctx delAddr valAddr infractionHeight slashFactor (done ++ [entry]) entries
        totalSlashAmount
    else
      let slashAmountDec ← slashFactor.mulInt entry.initialBalance
      let slashAmount ← slashAmountDec.truncateInt
      let totalSlashAmount ← SdkInt.add totalSlashAmount slashAmount
      let unbondingSlashAmount := min slashAmount entry.balance
      if unbondingSlashAmount = 0 then
        slashUnbondingEntries ctx delAddr valAddr infractionHeight slashFactor (done ++ [entry]) entries
          totalSlashAmount
      else
        let balance ← SdkInt.sub entry.balance unbondingSlashAmount
        let entry := { entry with balance := balance }
        setUnbondingDelegation ⟨delAddr, valAddr, done ++ entry :: entries⟩
        let pool ← getPool
        let notBondedTokens ← SdkInt.sub pool.notBondedTokens unbondingSlashAmount
        setPool { pool with notBondedTokens := notBondedTokens }
        slashUnbondingEntries ctx delAddr valAddr infractionHeight slashFactor (done ++ [entry]) entries
          totalSlashAmount

/-- `slashUnbondingDelegation`. -/
def slashUnbondingDelegation (ctx : Ctx) (ubd : UnbondingDelegation A) (infractionHeight : Int)
    (slashFactor : Dec) : KeeperM A ε Int :=
  slashUnbondingEntries ctx ubd.delegatorAddress ubd.validatorAddress infractionHeight slashFactor []
    ubd.entries 0

/-- The loop of `slashRedelegation` over the entries: the shares a slashed entry created at the
destination are unbonded there, and the tokens they give back are burnt. -/
def slashRedelegationEntries (ctx : Ctx) (delAddr valDstAddr : A) (infractionHeight : Int)
    (slashFactor : Dec) : List RedelegationEntry → Int → KeeperM A ε Int
  | [], totalSlashAmount => pure totalSlashAmount
  | entry :: entries, totalSlashAmount => do
    if entry.creationHeight < infractionHeight ∨ entry.isMature ctx.time then
      slashRedelegationEntries ctx delAddr valDstAddr infractionHeight slashFactor entries
        totalSlashAmount
    else
      let slashAmountDec ← slashFactor.mulInt entry.initialBalance
      let slashAmount ← slashAmountDec.truncateInt
      let totalSlashAmount ← SdkInt.add totalSlashAmount slashAmount
      let sharesToUnbond ← slashFactor.mul entry.sharesDst
      if sharesToUnbond.isZero then
        slashRedelegationEntries ctx delAddr valDstAddr infractionHeight slashFactor entries
          totalSlashAmount
      else
        match ← getDelegation delAddr valDstAddr with
        | none =>
          slashRedelegationEntries ctx delAddr valDstAddr infractionHeight slashFactor entries
            totalSlashAmount
        | some delegation =>
          let sharesToUnbond :=
            if sharesToUnbond.gt delegation.shares then delegation.shares else sharesToUnbond
          match ← k.unbond ctx delAddr valDstAddr sharesToUnbond with
          | .error _ => throw (.other "error unbonding delegator: ")
          | .ok tokensToBurn =>
            let pool ← getPool
            let notBondedTokens ← SdkInt.sub pool.notBondedTokens tokensToBurn
            setPool { pool with notBondedTokens := notBondedTokens }
            slashRedelegationEntries ctx delAddr valDstAddr infractionHeight slashFactor entries
              totalSlashAmount

/-- `slashRedelegation`. -/
def slashRedelegation (ctx : Ctx) (red : Redelegation A) (infractionHeight : Int)
    (slashFactor : Dec) : KeeperM A ε Int :=
  k.slashRedelegationEntries ctx red.delegatorAddress red.validatorDstAddress infractionHeight
    slashFactor red.entries 0

/-- The loop of `Slash` over the validator's unbonding delegations. -/
def slashUnbondingDelegations (ctx : Ctx) (infractionHeight : Int) (slashFactor : Dec) :
    List (UnbondingDelegation A) → Int → KeeperM A ε Int
  | [], remainingSlashAmount => pure remainingSlashAmount
  | ubd :: ubds, remainingSlashAmount => do
    let amountSlashed ← slashUnbondingDelegation ctx ubd infractionHeight slashFactor
    let remainingSlashAmount ←
      (if amountSlashed = 0 then pure remainingSlashAmount
      else SdkInt.sub remainingSlashAmount amountSlashed)
    slashUnbondingDelegations ctx infractionHeight slashFactor ubds remainingSlashAmount

/-- The loop of `Slash` over the validator's outgoing redelegations. -/
def slashRedelegations (ctx : Ctx) (infractionHeight : Int) (slashFactor : Dec) :
    List (Redelegation A) → Int → KeeperM A ε Int
  | [], remainingSlashAmount => pure remainingSlashAmount
  | red :: reds, remainingSlashAmount => do
    let amountSlashed ← k.slashRedelegation ctx red infractionHeight slashFactor
    let remainingSlashAmount ←
      (if amountSlashed = 0 then pure remainingSlashAmount
      else SdkInt.sub remainingSlashAmount amountSlashed)
    slashRedelegations ctx infractionHeight slashFactor reds remainingSlashAmount

/-- `Slash`: a validator that is not found is ignored; a negative factor, an unbonded validator and
an infraction in the future panic. -/
def slash (ctx : Ctx) (consAddr : A) (infractionHeight power : Int) (slashFactor : Dec) :
    KeeperM A ε Unit := do
  if slashFactor.lt Dec.zero then
    throw (.other "attempted to slash with a negative slash factor: ")
  let amount ← tokensFromTendermintPower power
  let slashAmountDec ← (Dec.newDecFromInt amount).mul slashFactor
  let slashAmount ← slashAmountDec.truncateInt
  let some validator ← getValidatorByConsAddr consAddr | return
  if validator.status = .unbonded then
    throw (.other "should not be slashing unbonded validator: ")
  let operatorAddress := validator.operatorAddress
  onRest fun st => k.hooks.beforeValidatorModified ctx st operatorAddress
  let remainingSlashAmount ←
    (if ctx.height < infractionHeight then
      throw (.other "impossible attempt to slash future infraction at height ")
    else if infractionHeight = ctx.height then pure slashAmount
    else do
      let ubds ← getUnbondingDelegationsFromValidator operatorAddress
      let remainingSlashAmount ← slashUnbondingDelegations ctx infractionHeight slashFactor ubds
        slashAmount
      let reds ← getRedelegationsFromValidator operatorAddress
      k.slashRedelegations ctx infractionHeight slashFactor reds remainingSlashAmount)
  let tokensToBurn := max (min remainingSlashAmount validator.tokens) 0
  (if 0 < validator.tokens then do
    let effectiveFraction ←
      (Dec.newDecFromInt tokensToBurn).quoRoundUp (Dec.newDecFromInt validator.tokens)
    let effectiveFraction := if effectiveFraction.gt Dec.one then Dec.one else effectiveFraction
    onRest fun st => k.hooks.beforeValidatorSlashed ctx st operatorAddress effectiveFraction
  else pure ())
  let _ ← removeValidatorTokens validator tokensToBurn
  let pool ← getPool
  let notBondedTokens ← SdkInt.sub pool.notBondedTokens tokensToBurn
  setPool { pool with notBondedTokens := notBondedTokens }

/-- `Jail`. -/
def jail (consAddr : A) : KeeperM A ε Unit := do
  let validator ← mustGetValidatorByConsAddr consAddr
  jailValidator validator

/-- `Unjail`. -/
def unjail (consAddr : A) : KeeperM A ε Unit := do
  let validator ← mustGetValidatorByConsAddr consAddr
  unjailValidator validator

end CosmosSdk.Staking.Keeper
