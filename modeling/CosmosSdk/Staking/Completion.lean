import CosmosSdk.Lib.InPlaceFilter
import CosmosSdk.Staking.Delegation
import CosmosSdk.Bank.Keeper
import CosmosSdk.Store.Prefix

/-!
# Completing unbondings and redelegations

`CompleteUnbonding` and `CompleteRedelegation` (`keeper/delegation.go`) walk the entries of a record by
index and delete the mature ones in place (`RemoveEntry`, then `i--`).  The keeper's model writes the
first loop as a recursion over the entries (`completeUnbondingEntries`) and the second as a filter.
Here the loops are written as the code has them, as instances of `InPlaceFilter.loop`, and shown to
compute the same (`completeUnbondingLoop_eq`, `completeRedelegationLoop_eq`).

So `CompleteUnbonding` undelegates, in order, the balance of each mature entry whose balance is not
zero, then writes back the other entries in their order, or removes the record when none is left.  The
first `UndelegateCoins` that fails ends it: it makes no further call and writes nothing
(`completeUnbonding_eq`).  With the bank keeper of `x/bank`, a delegator without an account is such a
failure (`ErrUnknownAddress`), and the record then keeps its mature entries.
-/

namespace CosmosSdk.Staking.Keeper

variable {A ε : Type} [LinearOrder A] (k : Keeper A ε)

/-- `UndelegateCoins` of an entry's balance, in the bond denomination. -/
def undelegateEntry (ctx : Ctx) (delAddr : A) (entry : UnbondingDelegationEntry) :
    KeeperM A ε (Option Error) := do
  let params ← getParams
  let coin ← newCoin entry.balance
  onRest fun _ => k.bankKeeper.undelegateCoins ctx delAddr params.bondDenom coin

/-- The loop of `CompleteUnbonding`: a mature entry is removed in place, and its balance undelegated
when it is not zero. -/
def completeUnbondingLoop (ctx : Ctx) (delAddr : A) (entries : List UnbondingDelegationEntry) :
    KeeperM A ε (Except Error (List UnbondingDelegationEntry)) :=
  InPlaceFilter.loop (fun entry => entry.isMature ctx.time)
    (fun entry => if entry.balance ≠ 0 then k.undelegateEntry ctx delAddr entry else pure none)
    entries 0

/-- The loop of `CompleteRedelegation`: a mature entry is removed in place, and nothing else done. -/
def completeRedelegationLoop (ctx : Ctx) (entries : List RedelegationEntry) :
    Except Empty (List RedelegationEntry) :=
  InPlaceFilter.loop (m := Id) (fun entry => entry.isMature ctx.time) (fun _ => pure none) entries 0

omit [LinearOrder A] in
/-- The model's recursion is what the loop computes. -/
theorem completeUnbondingEntries_eq_spec (ctx : Ctx) (delAddr : A) :
    ∀ entries, k.completeUnbondingEntries ctx delAddr entries =
      InPlaceFilter.spec (fun entry => entry.isMature ctx.time)
        (fun entry => if entry.balance ≠ 0 then k.undelegateEntry ctx delAddr entry else pure none)
        entries 0
  | [] => by simp [completeUnbondingEntries, InPlaceFilter.spec, InPlaceFilter.releaseAll]
  | entry :: entries => by
    rw [InPlaceFilter.spec_cons, completeUnbondingEntries,
      ← completeUnbondingEntries_eq_spec ctx delAddr entries]
    by_cases hm : entry.isMature ctx.time
    · by_cases hb : entry.balance ≠ 0
      · -- the call of the loop body is `undelegateEntry`, inlined
        simp only [if_pos hm, if_pos hb, undelegateEntry, bind_assoc]
        congr 1
        funext params
        congr 1
        funext coin
        congr 1
        funext r
        cases r <;> rfl
      · simp only [if_pos hm, if_neg hb, pure_bind]
    · simp only [if_neg hm]

omit [LinearOrder A] in
theorem completeUnbondingLoop_eq (ctx : Ctx) (delAddr : A) (entries : List UnbondingDelegationEntry) :
    k.completeUnbondingLoop ctx delAddr entries = k.completeUnbondingEntries ctx delAddr entries := by
  rw [completeUnbondingLoop, InPlaceFilter.loop_eq, completeUnbondingEntries_eq_spec]

theorem completeRedelegationLoop_eq (ctx : Ctx) (entries : List RedelegationEntry) :
    completeRedelegationLoop ctx entries = .ok (entries.filter fun entry => !entry.isMature ctx.time) :=
  InPlaceFilter.loop_pure (m := Id) _ entries

/-- `CompleteUnbonding` undelegates the balances of the mature entries that are not zero, in order,
and on success writes back the other entries, or removes the record when none is left. -/
theorem completeUnbonding_eq (ctx : Ctx) (delAddr valAddr : A) :
    k.completeUnbonding ctx delAddr valAddr = (do
      let some ubd ← getUnbondingDelegation delAddr valAddr | return some errNoUnbondingDelegation
      let mature := ubd.entries.filter fun entry => entry.isMature ctx.time
      match ← InPlaceFilter.releaseAll (k.undelegateEntry ctx ubd.delegatorAddress)
          (mature.filter fun entry => entry.balance ≠ 0) with
      | some err => return some err
      | none =>
        let ubd := { ubd with entries := ubd.entries.filter fun entry => !entry.isMature ctx.time }
        if ubd.entries.isEmpty then removeUnbondingDelegation ubd else setUnbondingDelegation ubd
        return none) := by
  unfold completeUnbonding
  congr 1
  funext found
  cases found with
  | none => rfl
  | some ubd =>
    dsimp only
    -- the zero balances are skipped by the loop body, and filtered out by the spec
    rw [completeUnbondingEntries_eq_spec, InPlaceFilter.spec,
      ← InPlaceFilter.releaseAll_ite (fun entry : UnbondingDelegationEntry => entry.balance ≠ 0)]
    simp only [bind_assoc, List.drop_zero, List.take_zero, List.nil_append]
    congr 1
    funext r
    cases r <;> rfl

/-- The loops of `CompleteUnbonding` and `CompleteRedelegation`, which remove entries in place, keep
exactly the entries that are not mature, in order.  `CompleteUnbonding` undelegates, in order and
once each, the balance of every mature entry whose balance is not zero; when each call succeeds it
stores the other entries, or removes the record when none is left; the first call that fails ends it
with that error, and nothing is written. -/
theorem completeUnbonding_releases_mature (ctx : Ctx) (delAddr valAddr : A) :
    (∀ entries, k.completeUnbondingLoop ctx delAddr entries =
      k.completeUnbondingEntries ctx delAddr entries) ∧
    k.completeUnbonding ctx delAddr valAddr = (do
      let some ubd ← getUnbondingDelegation delAddr valAddr | return some errNoUnbondingDelegation
      let mature := ubd.entries.filter fun entry => entry.isMature ctx.time
      match ← InPlaceFilter.releaseAll (k.undelegateEntry ctx ubd.delegatorAddress)
          (mature.filter fun entry => entry.balance ≠ 0) with
      | some err => return some err
      | none =>
        let ubd := { ubd with entries := ubd.entries.filter fun entry => !entry.isMature ctx.time }
        if ubd.entries.isEmpty then removeUnbondingDelegation ubd else setUnbondingDelegation ubd
        return none) ∧
    ∀ entries : List RedelegationEntry,
      completeRedelegationLoop ctx entries = .ok (entries.filter fun entry => !entry.isMature ctx.time) :=
  ⟨k.completeUnbondingLoop_eq ctx delAddr, k.completeUnbonding_eq ctx delAddr valAddr,
    completeRedelegationLoop_eq ctx⟩

end CosmosSdk.Staking.Keeper

namespace CosmosSdk.Bank

open CosmosSdk.Types

/-- The keeper of `x/bank` behind the interface the staking keeper calls (`types.BankKeeper`), for a
coin of one denomination; `BaseKeeper.DelegateCoins` and `BaseKeeper.UndelegateCoins` check the
amount before the functions they call check it again.  The tags are dropped. -/
def stakingBankKeeper (addrString : Auth.AccAddress → String) :
    Staking.BankKeeper Auth.AccAddress State where
  delegateCoins ctx addr denom amount := do
    let amt : Coins := [⟨denom, amount⟩]
    if !amt.isValid then return some (errInvalidCoins amt.toString)
    match ← delegateCoins addrString ctx.time addr amt with
    | .error err => pure (some err)
    | .ok () => pure none
  undelegateCoins _ addr denom amount := do
    let amt : Coins := [⟨denom, amount⟩]
    if !amt.isValid then return some (errInvalidCoins amt.toString)
    match ← undelegateCoins addrString addr amt with
    | .error err => pure (some err)
    | .ok () => pure none

end CosmosSdk.Bank

namespace CosmosSdk.Staking.Keeper

/-- A mature entry of ten tokens and a later one, of a delegator without an account: the call for
the first fails, and the record keeps both. -/
theorem completeUnbonding_unknown_delegator :
    ∃ s', (⟨Bank.stakingBankKeeper fun _ => "", .nil⟩ : Keeper (List UInt8) Bank.State).completeUnbonding
        ⟨2, 50⟩ [1] [2]
        ⟨⟨∅, ∅, ∅, ∅, Finmap.singleton ([1], [2]) [⟨1, 5, 10, 10⟩, ⟨1, 100, 3, 3⟩], ∅, ∅, ∅, ∅, ∅, 0,
            ⟨0, 0⟩, ⟨1814400, 100, 7, "stake"⟩⟩,
          ⟨Auth.Store.empty, true⟩⟩ = .ok (some (errUnknownAddress "account  does not exist"), s') ∧
      s'.store.unbondingDelegations.lookup ([1], [2]) = some [⟨1, 5, 10, 10⟩, ⟨1, 100, 3, 3⟩] :=
  ⟨_, rfl, rfl⟩

end CosmosSdk.Staking.Keeper
