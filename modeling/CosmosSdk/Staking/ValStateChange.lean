import CosmosSdk.Staking.Keeper

/-!
# Validator-set updates

`ApplyAndReturnValidatorSetUpdates` of `keeper/val_state_change.go` and
`UnbondAllMatureValidatorQueue` of `keeper/validator.go`, which the end blocker runs.

The first walks the power index from the highest rank down, bonds up to `MaxValidators` validators
with non-zero power, records the changed powers, and starts unbonding every validator of the last
set that it did not reach.  The walk reads a snapshot of the index: the bondings it makes rewrite
the entries it walks under their same keys.
-/

namespace CosmosSdk.Staking.Keeper

variable {A ε : Type} [LinearOrder A] (k : Keeper A ε)

/-- The walk of `ApplyAndReturnValidatorSetUpdates` over the power index, from the highest rank:
`last` holds the powers of the last set not reached yet, `updates` the updates so far.  It stops
after `maxValidators` validators or at the first without power. -/
def bondTopValidators (ctx : Ctx) (maxValidators : Nat) :
    List A → Nat → MemDB A Int → List (ValidatorUpdate A) → Int →
      KeeperM A ε (MemDB A Int × List (ValidatorUpdate A) × Int)
  | [], _, last, updates, totalPower => pure (last, updates, totalPower)
  | valAddr :: valAddrs, count, last, updates, totalPower => do
    if maxValidators ≤ count then return (last, updates, totalPower)
    let validator ← mustGetValidator valAddr
    if validator.jailed then throw (.other "should never retrieve a jailed validator from the power store")
    if (← validator.potentialTendermintPower) = 0 then return (last, updates, totalPower)
    let validator ← (match validator.status with
      | .unbonded => k.unbondedToBonded ctx validator
      | .unbonding => k.unbondingToBonded ctx validator
      | .bonded => pure validator)
    let newPower ← validator.tendermintPower
    -- the powers are compared through their encodings, which are equal exactly when they are
    let updates ← (if last.lookup valAddr ≠ some newPower then do
        setLastValidatorPower valAddr newPower
        pure (updates ++ [⟨validator.consAddress, newPower⟩])
      else pure updates)
    let totalPower ← SdkInt.add totalPower newPower
    bondTopValidators ctx maxValidators valAddrs (count + 1) (last.erase valAddr) updates totalPower

/-- The second loop of `ApplyAndReturnValidatorSetUpdates`: every validator of the last set that the
walk did not reach starts unbonding and is reported with power zero. -/
def unbondNoLongerBonded (ctx : Ctx) :
    List A → List (ValidatorUpdate A) → KeeperM A ε (List (ValidatorUpdate A))
  | [], updates => pure updates
  | valAddr :: valAddrs, updates => do
    let validator ← mustGetValidator valAddr
    let _ ← k.bondedToUnbonding ctx validator
    deleteLastValidatorPower valAddr
    unbondNoLongerBonded ctx valAddrs (updates ++ [⟨validator.consAddress, 0⟩])

/-- `sortNoLongerBonded`: the addresses left in `last`, in byte order. -/
def sortNoLongerBonded (last : MemDB A Int) : List A := last.keys.sort

/-- `ApplyAndReturnValidatorSetUpdates`. -/
def applyAndReturnValidatorSetUpdates (ctx : Ctx) : KeeperM A ε (List (ValidatorUpdate A)) := do
  let maxValidators := (← getParams).maxValidators
  let st ← getStore
  let last := st.lastValidatorPowers
  let powerIndex := (st.validatorsByPower.listing none none false).map (·.2)
  let (last, updates, totalPower) ← k.bondTopValidators ctx maxValidators powerIndex 0 last [] 0
  let updates ← k.unbondNoLongerBonded ctx (sortNoLongerBonded last) updates
  if 0 < updates.length then setLastTotalPower totalPower
  return updates

/-- The inner loop of `UnbondAllMatureValidatorQueue` over one time slice. -/
def unbondMatureValidators (ctx : Ctx) : List A → KeeperM A ε Unit
  | [] => pure ()
  | valAddr :: valAddrs => do
    let some val ← getValidator valAddr | throw (.other "validator in the unbonding queue was not found")
    if val.status ≠ .unbonding then
      throw (.other "unexpected validator in unbonding queue, status was not unbonding")
    let _ ← unbondingToUnbonded val
    (if val.delegatorShares.isZero then k.removeValidator ctx val.operatorAddress else pure ())
    unbondMatureValidators ctx valAddrs

/-- `UnbondAllMatureValidatorQueue`: every time slice up to the block time, in time order, then the
slice itself is deleted. -/
def unbondAllMatureValidatorQueue (ctx : Ctx) : KeeperM A ε Unit := do
  let slices := (← getStore).validatorQueue.listing none (some (ctx.time + 1)) true
  slices.forM fun (time, timeslice) => do
    k.unbondMatureValidators ctx timeslice
    modifyStore fun st => { st with validatorQueue := st.validatorQueue.erase time }

end CosmosSdk.Staking.Keeper
