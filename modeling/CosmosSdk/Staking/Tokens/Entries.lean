import CosmosSdk.Staking.Shares.Step

/-!
# The unbonding and redelegation entries

Besides the share ledger, the staking store books tokens in two more places: the pool, and the
entries of unbonding delegations (the tokens that wait to be paid out) and of redelegations.  This
module says which keeper methods leave them alone.

`SameBooks` relates two states with the same pool and the same entries: the readers, the hooks, the
indexes and queues, and the writes of validator records and delegations keep it.  `SameEntries`
forgets the pool: the methods that move tokens between the pool's halves (`delegate`, `unbond`,
the status changes of a validator) keep it too.  Only `Undelegate`, `BeginRedelegation`, the two
completions of the end blocker and the unbonding loop of `Slash` write entries.

`Store.EntriesInv` is what the entries keep in every reachable store: an unbonding entry holds a
nonnegative initial balance and a nonnegative balance, and a redelegation entry a nonnegative initial
balance.  The methods that append or drop entries keep it (`undelegate_entriesInv`,
`beginRedelegation_entriesInv`, `completeUnbonding_entriesInv`, `completeRedelegation_entriesInv`),
and the module `Staking.Tokens.Run` takes the invariant over every step.
-/

namespace CosmosSdk.Staking

open StateExcept

variable {A : Type} [LinearOrder A]

namespace Keeper

variable {ε α : Type}

/-! ### The two relations -/

/-- The two states have the same pool, unbonding delegations and redelegations. -/
structure SameBooks (s s' : State A ε) : Prop where
  pool : s'.store.pool = s.store.pool
  unbondingDelegations : s'.store.unbondingDelegations = s.store.unbondingDelegations
  redelegations : s'.store.redelegations = s.store.redelegations

/-- The two states have the same unbonding delegations and redelegations. -/
structure SameEntries (s s' : State A ε) : Prop where
  unbondingDelegations : s'.store.unbondingDelegations = s.store.unbondingDelegations
  redelegations : s'.store.redelegations = s.store.redelegations

instance : Std.Refl (SameBooks (A := A) (ε := ε)) := ⟨fun _ => ⟨rfl, rfl, rfl⟩⟩

instance : IsTrans (State A ε) SameBooks :=
  ⟨fun _ _ _ h₁ h₂ => ⟨h₂.pool.trans h₁.pool, h₂.unbondingDelegations.trans h₁.unbondingDelegations,
    h₂.redelegations.trans h₁.redelegations⟩⟩

instance : Std.Refl (SameEntries (A := A) (ε := ε)) := ⟨fun _ => ⟨rfl, rfl⟩⟩

instance : IsTrans (State A ε) SameEntries :=
  ⟨fun _ _ _ h₁ h₂ => ⟨h₂.unbondingDelegations.trans h₁.unbondingDelegations,
    h₂.redelegations.trans h₁.redelegations⟩⟩

omit [LinearOrder A] in
theorem SameBooks.sameEntries {s s' : State A ε} (h : SameBooks s s') : SameEntries s s' :=
  ⟨h.unbondingDelegations, h.redelegations⟩

omit [LinearOrder A] in
theorem sameEntries_of_books {x : KeeperM A ε α} (h : Guarantees SameBooks x) :
    Guarantees SameEntries x :=
  h.mono fun _ _ e => e.sameEntries

/-! ### Methods that keep the pool and the entries -/

section Books

omit [LinearOrder A] in
theorem sameBooks_onRest (f : Store A → StateT ε (Except Panic) α) :
    Guarantees SameBooks (onRest f) := by
  intro s a s' h
  obtain ⟨rest, -, rfl⟩ := onRest_eq_ok.1 h
  exact ⟨rfl, rfl, rfl⟩

omit [LinearOrder A] in
theorem sameBooks_modifyStore {f : Store A → Store A}
    (hf : ∀ st, (f st).pool = st.pool ∧ (f st).unbondingDelegations = st.unbondingDelegations ∧
      (f st).redelegations = st.redelegations) :
    Guarantees SameBooks (modifyStore (ε := ε) f) := by
  intro s u s' h
  rw [modifyStore_eq_ok.1 h]
  obtain ⟨h₁, h₂, h₃⟩ := hf s.store
  exact ⟨h₁, h₂, h₃⟩

omit [LinearOrder A] in
theorem sameBooks_getStore : Guarantees SameBooks (getStore (A := A) (ε := ε)) := by
  intro s st s' h
  rw [← (getStore_eq_ok.1 h).2]
  exact ⟨rfl, rfl, rfl⟩

theorem sameBooks_getValidator (addr : A) : Guarantees SameBooks (getValidator (ε := ε) addr) :=
  sameBooks_getStore.bind fun _ => Guarantees.pure _

theorem sameBooks_mustGetValidator (addr : A) :
    Guarantees SameBooks (mustGetValidator (ε := ε) addr) := by
  unfold mustGetValidator
  refine (sameBooks_getValidator addr).bind fun found => ?_
  cases found with
  | some _ => exact Guarantees.pure _
  | none => exact Guarantees.throw _

theorem sameBooks_getValidatorByConsAddr (consAddr : A) :
    Guarantees SameBooks (getValidatorByConsAddr (ε := ε) consAddr) := by
  unfold getValidatorByConsAddr
  refine sameBooks_getStore.bind fun st => ?_
  split
  · exact sameBooks_getValidator _
  · exact Guarantees.pure _

theorem sameBooks_mustGetValidatorByConsAddr (consAddr : A) :
    Guarantees SameBooks (mustGetValidatorByConsAddr (ε := ε) consAddr) := by
  unfold mustGetValidatorByConsAddr
  refine (sameBooks_getValidatorByConsAddr consAddr).bind fun found => ?_
  cases found with
  | some _ => exact Guarantees.pure _
  | none => exact Guarantees.throw _

omit [LinearOrder A] in
theorem sameBooks_getPool : Guarantees SameBooks (getPool (A := A) (ε := ε)) :=
  sameBooks_getStore.bind fun _ => Guarantees.pure _

omit [LinearOrder A] in
theorem sameBooks_getParams : Guarantees SameBooks (getParams (A := A) (ε := ε)) :=
  sameBooks_getStore.bind fun _ => Guarantees.pure _

theorem sameBooks_getDelegation (delAddr valAddr : A) :
    Guarantees SameBooks (getDelegation (ε := ε) delAddr valAddr) :=
  sameBooks_getStore.bind fun _ => Guarantees.pure _

theorem sameBooks_getUnbondingDelegation (delAddr valAddr : A) :
    Guarantees SameBooks (getUnbondingDelegation (ε := ε) delAddr valAddr) :=
  sameBooks_getStore.bind fun _ => Guarantees.pure _

theorem sameBooks_hasMaxUnbondingDelegationEntries (delAddr valAddr : A) :
    Guarantees SameBooks (hasMaxUnbondingDelegationEntries (ε := ε) delAddr valAddr) := by
  unfold hasMaxUnbondingDelegationEntries
  refine (sameBooks_getUnbondingDelegation _ _).bind fun found => ?_
  cases found with
  | none => exact Guarantees.pure _
  | some _ => exact sameBooks_getParams.bind fun _ => Guarantees.pure _

theorem sameBooks_getRedelegation (delAddr valSrcAddr valDstAddr : A) :
    Guarantees SameBooks (getRedelegation (ε := ε) delAddr valSrcAddr valDstAddr) :=
  sameBooks_getStore.bind fun _ => Guarantees.pure _

theorem sameBooks_getRedelegationsFromValidator (valAddr : A) :
    Guarantees SameBooks (getRedelegationsFromValidator (ε := ε) valAddr) :=
  sameBooks_getStore.bind fun _ => Guarantees.pure _

theorem sameBooks_hasReceivingRedelegation (delAddr valDstAddr : A) :
    Guarantees SameBooks (hasReceivingRedelegation (ε := ε) delAddr valDstAddr) :=
  sameBooks_getStore.bind fun _ => Guarantees.pure _

theorem sameBooks_hasMaxRedelegationEntries (delAddr valSrcAddr valDstAddr : A) :
    Guarantees SameBooks (hasMaxRedelegationEntries (ε := ε) delAddr valSrcAddr valDstAddr) := by
  unfold hasMaxRedelegationEntries
  refine (sameBooks_getRedelegation _ _ _).bind fun found => ?_
  cases found with
  | none => exact Guarantees.pure _
  | some _ => exact sameBooks_getParams.bind fun _ => Guarantees.pure _

theorem sameBooks_getBeginInfo (ctx : Ctx) (valSrcAddr : A) :
    Guarantees SameBooks (getBeginInfo (ε := ε) ctx valSrcAddr) := by
  unfold getBeginInfo
  refine (sameBooks_getValidator _).bind fun found => ?_
  split
  · exact Guarantees.pure _
  · exact Guarantees.pure _
  · exact sameBooks_getParams.bind fun _ => Guarantees.pure _

theorem sameBooks_setValidator (v : Validator A) : Guarantees SameBooks (setValidator (ε := ε) v) :=
  sameBooks_modifyStore fun _ => ⟨rfl, rfl, rfl⟩

theorem sameBooks_setValidatorByConsAddr (v : Validator A) :
    Guarantees SameBooks (setValidatorByConsAddr (ε := ε) v) :=
  sameBooks_modifyStore fun _ => ⟨rfl, rfl, rfl⟩

theorem sameBooks_setValidatorByPowerIndex (v : Validator A) :
    Guarantees SameBooks (setValidatorByPowerIndex (ε := ε) v) := by
  unfold setValidatorByPowerIndex
  exact Guarantees.ite (fun _ => Guarantees.pure _)
    (fun _ => (Guarantees.lift _).bind fun _ => sameBooks_modifyStore fun _ => ⟨rfl, rfl, rfl⟩)

theorem sameBooks_deleteValidatorByPowerIndex (v : Validator A) :
    Guarantees SameBooks (deleteValidatorByPowerIndex (ε := ε) v) :=
  (Guarantees.lift _).bind fun _ => sameBooks_modifyStore fun _ => ⟨rfl, rfl, rfl⟩

theorem sameBooks_setNewValidatorByPowerIndex (v : Validator A) :
    Guarantees SameBooks (setNewValidatorByPowerIndex (ε := ε) v) :=
  (Guarantees.lift _).bind fun _ => sameBooks_modifyStore fun _ => ⟨rfl, rfl, rfl⟩

theorem sameBooks_setLastValidatorPower (operator : A) (power : Int) :
    Guarantees SameBooks (setLastValidatorPower (ε := ε) operator power) :=
  sameBooks_modifyStore fun _ => ⟨rfl, rfl, rfl⟩

theorem sameBooks_deleteLastValidatorPower (operator : A) :
    Guarantees SameBooks (deleteLastValidatorPower (ε := ε) operator) :=
  sameBooks_modifyStore fun _ => ⟨rfl, rfl, rfl⟩

omit [LinearOrder A] in
theorem sameBooks_setLastTotalPower (power : Int) :
    Guarantees SameBooks (setLastTotalPower (A := A) (ε := ε) power) :=
  sameBooks_modifyStore fun _ => ⟨rfl, rfl, rfl⟩

theorem sameBooks_setDelegation (d : Delegation A) :
    Guarantees SameBooks (setDelegation (ε := ε) d) := by
  dsimp only [setDelegation]
  exact sameBooks_modifyStore fun _ => ⟨rfl, rfl, rfl⟩

omit [LinearOrder A] in
theorem sameBooks_insertValidatorQueue (v : Validator A) :
    Guarantees SameBooks (insertValidatorQueue (ε := ε) v) :=
  (sameBooks_getStore.bind fun _ => Guarantees.pure _).bind fun _ =>
    sameBooks_modifyStore fun _ => ⟨rfl, rfl, rfl⟩

theorem sameBooks_deleteValidatorQueue (v : Validator A) :
    Guarantees SameBooks (deleteValidatorQueue (ε := ε) v) :=
  (sameBooks_getStore.bind fun _ => Guarantees.pure _).bind fun _ =>
    Guarantees.ite (fun _ => sameBooks_modifyStore fun _ => ⟨rfl, rfl, rfl⟩)
      (fun _ => sameBooks_modifyStore fun _ => ⟨rfl, rfl, rfl⟩)

omit [LinearOrder A] in
theorem sameBooks_insertUBDQueue (ubd : UnbondingDelegation A) (completionTime : Int) :
    Guarantees SameBooks (insertUBDQueue (ε := ε) ubd completionTime) :=
  (sameBooks_getStore.bind fun _ => Guarantees.pure _).bind fun _ =>
    sameBooks_modifyStore fun _ => ⟨rfl, rfl, rfl⟩

omit [LinearOrder A] in
theorem sameBooks_insertRedelegationQueue (red : Redelegation A) (completionTime : Int) :
    Guarantees SameBooks (insertRedelegationQueue (ε := ε) red completionTime) :=
  (sameBooks_getStore.bind fun _ => Guarantees.pure _).bind fun _ =>
    sameBooks_modifyStore fun _ => ⟨rfl, rfl, rfl⟩

omit [LinearOrder A] in
theorem sameBooks_dequeueAllMatureUBDQueue (ctx : Ctx) :
    Guarantees SameBooks (dequeueAllMatureUBDQueue (A := A) (ε := ε) ctx) :=
  sameBooks_getStore.bind fun _ =>
    Guarantees.bind (sameBooks_modifyStore (by intro; exact ⟨rfl, rfl, rfl⟩)) fun _ => Guarantees.pure _

omit [LinearOrder A] in
theorem sameBooks_dequeueAllMatureRedelegationQueue (ctx : Ctx) :
    Guarantees SameBooks (dequeueAllMatureRedelegationQueue (A := A) (ε := ε) ctx) :=
  sameBooks_getStore.bind fun _ =>
    Guarantees.bind (sameBooks_modifyStore (by intro; exact ⟨rfl, rfl, rfl⟩)) fun _ => Guarantees.pure _

theorem sameBooks_jailValidator (v : Validator A) : Guarantees SameBooks (jailValidator (ε := ε) v) := by
  unfold jailValidator
  dsimp only
  split
  · exact Guarantees.throw_bind _
  · exact (sameBooks_setValidator _).bind fun _ => sameBooks_deleteValidatorByPowerIndex _

theorem sameBooks_unjailValidator (v : Validator A) :
    Guarantees SameBooks (unjailValidator (ε := ε) v) := by
  unfold unjailValidator
  dsimp only
  split
  · exact Guarantees.throw_bind _
  · exact (sameBooks_setValidator _).bind fun _ => sameBooks_setValidatorByPowerIndex _

theorem sameBooks_jail (consAddr : A) : Guarantees SameBooks (jail (ε := ε) consAddr) :=
  (sameBooks_mustGetValidatorByConsAddr consAddr).bind fun _ => sameBooks_jailValidator _

theorem sameBooks_unjail (consAddr : A) : Guarantees SameBooks (unjail (ε := ε) consAddr) :=
  (sameBooks_mustGetValidatorByConsAddr consAddr).bind fun _ => sameBooks_unjailValidator _

variable (k : Keeper A ε)

theorem sameBooks_removeDelegation (ctx : Ctx) (d : Delegation A) :
    Guarantees SameBooks (k.removeDelegation ctx d) :=
  (sameBooks_onRest _).bind fun _ => sameBooks_modifyStore fun _ => ⟨rfl, rfl, rfl⟩

theorem sameBooks_removeValidator (ctx : Ctx) (address : A) :
    Guarantees SameBooks (k.removeValidator ctx address) := by
  unfold removeValidator
  refine (sameBooks_getValidator address).bind fun found => ?_
  cases found with
  | none => exact Guarantees.pure _
  | some validator =>
    dsimp only
    split
    · exact Guarantees.throw_bind _
    split
    · exact Guarantees.throw_bind _
    exact (Guarantees.lift _).bind fun _ =>
      Guarantees.bind (sameBooks_modifyStore (by intro; exact ⟨rfl, rfl, rfl⟩)) fun _ => sameBooks_onRest _

end Books

/-! ### Methods that keep the entries -/

section Entries

omit [LinearOrder A] in
theorem sameEntries_setPool (pool : Pool) : Guarantees SameEntries (setPool (A := A) (ε := ε) pool) := by
  intro s u s' h
  rw [setPool_eq_ok.1 h]
  exact ⟨rfl, rfl⟩

/-- A validator-level method that updates a record and the pool by a computation `f` of them. -/
theorem sameEntries_recordAndPool {β : Type} (v : Validator A) (f : Pool → Except Panic (Validator A × Pool × β)) :
    Guarantees SameEntries (do
      deleteValidatorByPowerIndex (ε := ε) v
      let pool ← getPool
      let (validator, pool, b) ← liftM (f pool)
      setValidator validator
      setPool pool
      setValidatorByPowerIndex validator
      pure (validator, b)) :=
  (sameEntries_of_books (sameBooks_deleteValidatorByPowerIndex v)).bind fun _ =>
    (sameEntries_of_books sameBooks_getPool).bind fun _ => (Guarantees.lift _).bind fun _ =>
      (sameEntries_of_books (sameBooks_setValidator _)).bind fun _ => (sameEntries_setPool _).bind fun _ =>
        (sameEntries_of_books (sameBooks_setValidatorByPowerIndex _)).bind fun _ => Guarantees.pure _

theorem sameEntries_addValidatorTokensAndShares (v : Validator A) (amount : Int) :
    Guarantees SameEntries (addValidatorTokensAndShares (ε := ε) v amount) :=
  sameEntries_recordAndPool v fun pool => v.addTokensFromDel pool amount

theorem sameEntries_removeValidatorTokensAndShares (v : Validator A) (shares : Dec) :
    Guarantees SameEntries (removeValidatorTokensAndShares (ε := ε) v shares) :=
  sameEntries_recordAndPool v fun pool => v.removeDelShares pool shares

theorem sameEntries_removeValidatorTokens (v : Validator A) (tokens : Int) :
    Guarantees SameEntries (removeValidatorTokens (ε := ε) v tokens) :=
  (sameEntries_of_books (sameBooks_deleteValidatorByPowerIndex v)).bind fun _ =>
    (sameEntries_of_books sameBooks_getPool).bind fun _ => (Guarantees.lift _).bind fun _ =>
      (sameEntries_of_books (sameBooks_setValidator _)).bind fun _ => (sameEntries_setPool _).bind fun _ =>
        (sameEntries_of_books (sameBooks_setValidatorByPowerIndex _)).bind fun _ => Guarantees.pure _

theorem sameEntries_completeUnbondingValidator (v : Validator A) :
    Guarantees SameEntries (completeUnbondingValidator (ε := ε) v) :=
  (sameEntries_of_books sameBooks_getPool).bind fun _ => (Guarantees.lift _).bind fun _ =>
    (sameEntries_setPool _).bind fun _ => (sameEntries_of_books (sameBooks_setValidator _)).bind fun _ =>
      Guarantees.pure _

omit [LinearOrder A] in
/-- A check that panics, then `x`. -/
theorem sameEntries_check {c : Prop} [Decidable c] {e : Panic} {x : KeeperM A ε α}
    (hx : Guarantees SameEntries x) :
    Guarantees SameEntries (do if c then throw e
                               x) :=
  Guarantees.ite (fun _ => Guarantees.throw_bind _) fun _ => hx

theorem sameEntries_unbondingToUnbonded (v : Validator A) :
    Guarantees SameEntries (unbondingToUnbonded (ε := ε) v) :=
  sameEntries_check (sameEntries_completeUnbondingValidator v)

variable (k : Keeper A ε)

theorem sameEntries_bondValidator (ctx : Ctx) (v : Validator A) :
    Guarantees SameEntries (k.bondValidator ctx v) :=
  (sameEntries_of_books (sameBooks_deleteValidatorByPowerIndex v)).bind fun _ =>
    (sameEntries_of_books sameBooks_getPool).bind fun _ => (Guarantees.lift _).bind fun _ =>
      (sameEntries_setPool _).bind fun _ => (sameEntries_of_books (sameBooks_setValidator _)).bind fun _ =>
        (sameEntries_of_books (sameBooks_setValidatorByPowerIndex _)).bind fun _ =>
          (sameEntries_of_books (sameBooks_deleteValidatorQueue _)).bind fun _ =>
            (sameEntries_of_books (sameBooks_onRest _)).bind fun _ => Guarantees.pure _

theorem sameEntries_beginUnbondingValidator (ctx : Ctx) (v : Validator A) :
    Guarantees SameEntries (k.beginUnbondingValidator ctx v) := by
  unfold beginUnbondingValidator
  refine (sameEntries_of_books sameBooks_getParams).bind fun _ =>
    (sameEntries_of_books (sameBooks_deleteValidatorByPowerIndex v)).bind fun _ => sameEntries_check ?_
  exact (sameEntries_of_books sameBooks_getPool).bind fun _ => (Guarantees.lift _).bind fun _ =>
    (sameEntries_setPool _).bind fun _ => (sameEntries_of_books (sameBooks_setValidator _)).bind fun _ =>
      (sameEntries_of_books (sameBooks_setValidatorByPowerIndex _)).bind fun _ =>
        (sameEntries_of_books (sameBooks_insertValidatorQueue _)).bind fun _ =>
          (sameEntries_of_books (sameBooks_onRest _)).bind fun _ => Guarantees.pure _

theorem sameEntries_bondedToUnbonding (ctx : Ctx) (v : Validator A) :
    Guarantees SameEntries (k.bondedToUnbonding ctx v) :=
  sameEntries_check (sameEntries_beginUnbondingValidator k ctx v)

theorem sameEntries_unbondingToBonded (ctx : Ctx) (v : Validator A) :
    Guarantees SameEntries (k.unbondingToBonded ctx v) :=
  sameEntries_check (sameEntries_bondValidator k ctx v)

theorem sameEntries_unbondedToBonded (ctx : Ctx) (v : Validator A) :
    Guarantees SameEntries (k.unbondedToBonded ctx v) :=
  sameEntries_check (sameEntries_bondValidator k ctx v)

theorem sameEntries_delegate (ctx : Ctx) (delAddr : A) (bondAmt : Int) (validator : Validator A)
    (sub : Bool) : Guarantees SameEntries (k.delegate ctx delAddr bondAmt validator sub) := by
  unfold delegate
  dsimp only
  refine Guarantees.ite (fun _ => Guarantees.pure _) fun _ => ?_
  refine (sameEntries_of_books (sameBooks_getDelegation _ _)).bind fun found => ?_
  refine Guarantees.bind ?_ fun _ => ?_
  · cases found <;> exact sameEntries_of_books (sameBooks_onRest _)
  refine Guarantees.bind (Guarantees.ite (fun _ => (sameEntries_of_books sameBooks_getParams).bind fun _ =>
    (Guarantees.lift _).bind fun _ => sameEntries_of_books (sameBooks_onRest _))
    fun _ => Guarantees.pure _) fun bankErr => ?_
  cases bankErr with
  | some _ => exact Guarantees.pure _
  | none =>
    exact (sameEntries_addValidatorTokensAndShares _ _).bind fun _ => (Guarantees.lift _).bind fun _ =>
      (sameEntries_of_books (sameBooks_setDelegation _)).bind fun _ =>
        (sameEntries_of_books (sameBooks_onRest _)).bind fun _ => Guarantees.pure _

/-- The self-delegation check of `unbond`, which may jail the operator's validator. -/
theorem sameBooks_unbondJail (delegatorAddress : A) (validator : Validator A) (remaining : Dec) :
    Guarantees SameBooks (if delegatorAddress = validator.operatorAddress ∧ (!validator.jailed) = true then do
        let worth ← liftM (validator.shareTokens remaining)
        let selfTokens ← liftM worth.truncateInt
        if selfTokens < validator.minSelfDelegation then do
            jailValidator validator
            mustGetValidator validator.operatorAddress
          else pure validator
      else (pure validator : KeeperM A ε (Validator A))) :=
  Guarantees.ite (fun _ => (Guarantees.lift _).bind fun _ => (Guarantees.lift _).bind fun _ =>
    Guarantees.ite (fun _ => (sameBooks_jailValidator _).bind fun _ => sameBooks_mustGetValidator _)
      fun _ => Guarantees.pure _) fun _ => Guarantees.pure _

theorem sameEntries_unbond (ctx : Ctx) (delAddr valAddr : A) (shares : Dec) :
    Guarantees SameEntries (k.unbond ctx delAddr valAddr shares) := by
  unfold unbond
  dsimp only
  refine (sameEntries_of_books (sameBooks_getDelegation _ _)).bind fun found => ?_
  cases found with
  | none => exact Guarantees.pure _
  | some delegation =>
    refine (sameEntries_of_books (sameBooks_onRest _)).bind fun _ => ?_
    refine Guarantees.ite (fun _ => Guarantees.pure _) fun _ => ?_
    refine (sameEntries_of_books (sameBooks_getValidator _)).bind fun found => ?_
    cases found with
    | none => exact Guarantees.pure _
    | some validator =>
      refine (Guarantees.lift _).bind fun remaining => ?_
      refine (sameEntries_of_books (sameBooks_unbondJail _ _ _)).bind fun validator => ?_
      refine Guarantees.bind ?_ fun _ => ?_
      · exact Guarantees.ite (fun _ => sameEntries_of_books (sameBooks_removeDelegation k _ _)) fun _ =>
          sameEntries_of_books ((sameBooks_setDelegation _).bind fun _ => sameBooks_onRest _)
      refine (sameEntries_removeValidatorTokensAndShares _ _).bind fun _ => ?_
      exact Guarantees.bind (Guarantees.ite (fun _ => sameEntries_of_books (sameBooks_removeValidator k _ _))
        fun _ => Guarantees.pure _) fun _ => Guarantees.pure _

/-! ### The end of a block, the messages and minting -/

theorem sameEntries_bondTopValidators (ctx : Ctx) (maxValidators : Nat) :
    ∀ (valAddrs : List A) (count : Nat) (last : MemDB A Int) (updates : List (ValidatorUpdate A))
      (totalPower : Int),
      Guarantees SameEntries (k.bondTopValidators ctx maxValidators valAddrs count last updates totalPower)
  | [], _, _, _, _ => Guarantees.pure _
  | valAddr :: valAddrs, count, last, updates, totalPower => by
    rw [bondTopValidators]
    refine Guarantees.ite (fun _ => Guarantees.pure _) fun _ => ?_
    refine (sameEntries_of_books (sameBooks_mustGetValidator _)).bind fun validator => ?_
    refine sameEntries_check ((Guarantees.lift _).bind fun _ => ?_)
    refine Guarantees.ite (fun _ => Guarantees.pure _) fun _ => ?_
    refine Guarantees.bind ?_ fun validator => ?_
    · split
      · exact sameEntries_unbondedToBonded k ctx _
      · exact sameEntries_unbondingToBonded k ctx _
      · exact Guarantees.pure _
    refine (Guarantees.lift _).bind fun _ => Guarantees.bind ?_ fun _ => (Guarantees.lift _).bind fun _ =>
      sameEntries_bondTopValidators ctx maxValidators valAddrs _ _ _ _
    split
    · exact (sameEntries_of_books (sameBooks_setLastValidatorPower _ _)).bind fun _ => Guarantees.pure _
    · exact Guarantees.pure _

theorem sameEntries_unbondNoLongerBonded (ctx : Ctx) :
    ∀ (valAddrs : List A) (updates : List (ValidatorUpdate A)),
      Guarantees SameEntries (k.unbondNoLongerBonded ctx valAddrs updates)
  | [], _ => Guarantees.pure _
  | valAddr :: valAddrs, updates => by
    rw [unbondNoLongerBonded]
    exact (sameEntries_of_books (sameBooks_mustGetValidator _)).bind fun _ =>
      (sameEntries_bondedToUnbonding k ctx _).bind fun _ =>
        (sameEntries_of_books (sameBooks_deleteLastValidatorPower _)).bind fun _ =>
          sameEntries_unbondNoLongerBonded ctx valAddrs _

theorem sameEntries_applyAndReturnValidatorSetUpdates (ctx : Ctx) :
    Guarantees SameEntries (k.applyAndReturnValidatorSetUpdates ctx) := by
  unfold applyAndReturnValidatorSetUpdates
  refine (sameEntries_of_books sameBooks_getParams).bind fun _ =>
    (sameEntries_of_books sameBooks_getStore).bind fun _ => ?_
  refine (sameEntries_bondTopValidators k ctx _ _ 0 _ [] 0).bind fun _ =>
    (sameEntries_unbondNoLongerBonded k ctx _ _).bind fun _ => ?_
  exact Guarantees.ite (fun _ => (sameEntries_of_books (sameBooks_setLastTotalPower _)).bind fun _ =>
    Guarantees.pure _) fun _ => Guarantees.pure _

theorem sameEntries_unbondMatureValidators (ctx : Ctx) :
    ∀ valAddrs : List A, Guarantees SameEntries (k.unbondMatureValidators ctx valAddrs)
  | [] => Guarantees.pure _
  | valAddr :: valAddrs => by
    rw [unbondMatureValidators]
    refine (sameEntries_of_books (sameBooks_getValidator _)).bind fun found => ?_
    cases found with
    | none => exact Guarantees.throw _
    | some val =>
      refine sameEntries_check ((sameEntries_unbondingToUnbonded _).bind fun _ => ?_)
      exact Guarantees.bind (Guarantees.ite (fun _ => sameEntries_of_books (sameBooks_removeValidator k _ _))
        fun _ => Guarantees.pure _) fun _ => sameEntries_unbondMatureValidators ctx valAddrs

theorem sameEntries_unbondAllMatureValidatorQueue (ctx : Ctx) :
    Guarantees SameEntries (k.unbondAllMatureValidatorQueue ctx) :=
  (sameEntries_of_books sameBooks_getStore).bind fun _ => Guarantees.forM fun _ _ =>
    (sameEntries_unbondMatureValidators k ctx _).bind fun _ =>
      sameEntries_of_books (sameBooks_modifyStore fun _ => ⟨rfl, rfl, rfl⟩)

theorem sameEntries_handleMsgCreateValidator (ctx : Ctx) (description : Description)
    (commission : CommissionMsg) (minSelfDelegation : Int) (delegatorAddress validatorAddress pubKey : A)
    (value : Coin) :
    Guarantees SameEntries (k.handleMsgCreateValidator ctx description commission minSelfDelegation
      delegatorAddress validatorAddress pubKey value) := by
  unfold handleMsgCreateValidator
  dsimp only
  refine (sameEntries_of_books (sameBooks_getValidator _)).bind fun _ => ?_
  refine Guarantees.ite (fun _ => Guarantees.pure _) fun _ => ?_
  refine (sameEntries_of_books (sameBooks_getValidatorByConsAddr _)).bind fun _ => ?_
  refine Guarantees.ite (fun _ => Guarantees.pure _) fun _ => ?_
  refine (sameEntries_of_books sameBooks_getParams).bind fun _ => ?_
  refine Guarantees.ite (fun _ => Guarantees.pure _) fun _ => ?_
  split
  · exact Guarantees.pure _
  split
  · exact Guarantees.pure _
  refine (sameEntries_of_books (sameBooks_setValidator _)).bind fun _ =>
    (sameEntries_of_books (sameBooks_setValidatorByConsAddr _)).bind fun _ =>
      (sameEntries_of_books (sameBooks_setNewValidatorByPowerIndex _)).bind fun _ =>
        (sameEntries_of_books (sameBooks_onRest _)).bind fun _ => ?_
  refine (sameEntries_delegate k _ _ _ _ _).bind fun r => ?_
  cases r <;> exact Guarantees.pure _

theorem sameBooks_handleMsgEditValidator (ctx : Ctx) (description : Description) (validatorAddress : A)
    (commissionRate : Option Dec) (minSelfDelegation : Option Int) :
    Guarantees SameBooks (k.handleMsgEditValidator ctx description validatorAddress commissionRate
      minSelfDelegation) := by
  intro s r s' h
  obtain ⟨s₁, hrest, hend⟩ := k.handleMsgEditValidator_eq_ok h
  have e₁ : SameBooks s s₁ := by
    rcases hrest with rfl | hrest
    · exact Std.Refl.refl _
    · exact sameBooks_onRest _ _ _ _ hrest
  rcases hend with rfl | ⟨-, v, -, -, -, -, hset⟩
  · exact e₁
  · exact IsTrans.trans _ _ _ e₁ (sameBooks_setValidator v _ _ _ hset)

theorem sameEntries_handleMsgDelegate (ctx : Ctx) (delegatorAddress validatorAddress : A) (value : Coin) :
    Guarantees SameEntries (k.handleMsgDelegate ctx delegatorAddress validatorAddress value) := by
  unfold handleMsgDelegate
  refine (sameEntries_of_books (sameBooks_getValidator _)).bind fun found => ?_
  cases found with
  | none => exact Guarantees.pure _
  | some validator =>
    dsimp only
    refine (sameEntries_of_books sameBooks_getParams).bind fun _ => ?_
    exact Guarantees.ite (fun _ => Guarantees.pure _) fun _ =>
      (sameEntries_delegate k _ _ _ _ _).bind fun _ => Guarantees.pure _

omit [LinearOrder A] in
theorem sameEntries_inflateSupply (newTokens : Int) :
    Guarantees SameEntries (inflateSupply (A := A) (ε := ε) newTokens) :=
  (sameEntries_of_books sameBooks_getPool).bind fun _ => (Guarantees.lift _).bind fun _ =>
    sameEntries_setPool _

omit [LinearOrder A] in
theorem sameBooks_completeUnbondingEntries (ctx : Ctx) (delAddr : A) :
    ∀ entries : List UnbondingDelegationEntry,
      Guarantees SameBooks (k.completeUnbondingEntries ctx delAddr entries)
  | [] => Guarantees.pure _
  | entry :: entries => by
    rw [completeUnbondingEntries]
    have ih := sameBooks_completeUnbondingEntries ctx delAddr entries
    refine Guarantees.ite (fun _ => ?_) fun _ => ih.bind fun _ => Guarantees.pure _
    refine Guarantees.ite (fun _ => ?_) fun _ => ih
    refine sameBooks_getParams.bind fun _ => (Guarantees.lift _).bind fun _ =>
      (sameBooks_onRest _).bind fun found => ?_
    cases found
    · exact ih
    · exact Guarantees.pure _

end Entries

end Keeper

/-! ### The entries invariant -/

/-- An unbonding entry as `Undelegate` makes it and `Slash` leaves it: a nonnegative initial
balance and a nonnegative balance. -/
def UnbondingDelegationEntry.Sound (e : UnbondingDelegationEntry) : Prop :=
  0 ≤ e.initialBalance ∧ 0 ≤ e.balance

/-- What every reachable store keeps of its entries. -/
structure Store.EntriesInv (st : Store A) : Prop where
  unbonding {key : A × A} {entries : List UnbondingDelegationEntry} :
    st.unbondingDelegations.lookup key = some entries → ∀ e ∈ entries, e.Sound
  redelegation {key : A × A × A} {entries : List RedelegationEntry} :
    st.redelegations.lookup key = some entries → ∀ e ∈ entries, 0 ≤ e.initialBalance

namespace Store.EntriesInv

variable {st : Store A} (hinv : st.EntriesInv)
include hinv

theorem insertUnbonding (key : A × A) {entries : List UnbondingDelegationEntry}
    (hentries : ∀ e ∈ entries, e.Sound) :
    ({ st with unbondingDelegations := st.unbondingDelegations.insert key entries } : Store A).EntriesInv where
  unbonding {key'} _ h := by
    by_cases hk : key' = key
    · subst hk
      rw [Finmap.lookup_insert, Option.some.injEq] at h
      exact h ▸ hentries
    · exact hinv.unbonding ((Finmap.lookup_insert_of_ne _ hk).symm.trans h)
  redelegation := hinv.redelegation

theorem eraseUnbonding (key : A × A) :
    ({ st with unbondingDelegations := st.unbondingDelegations.erase key } : Store A).EntriesInv where
  unbonding {key'} _ h := by
    by_cases hk : key' = key
    · subst hk
      rw [Finmap.lookup_erase] at h
      cases h
    · exact hinv.unbonding ((Finmap.lookup_erase_ne hk).symm.trans h)
  redelegation := hinv.redelegation

theorem insertRedelegation (key : A × A × A) {entries : List RedelegationEntry}
    (hentries : ∀ e ∈ entries, 0 ≤ e.initialBalance) :
    ({ st with redelegations := st.redelegations.insert key entries } : Store A).EntriesInv where
  unbonding := hinv.unbonding
  redelegation {key'} _ h := by
    by_cases hk : key' = key
    · subst hk
      rw [Finmap.lookup_insert, Option.some.injEq] at h
      exact h ▸ hentries
    · exact hinv.redelegation ((Finmap.lookup_insert_of_ne _ hk).symm.trans h)

theorem eraseRedelegation (key : A × A × A) :
    ({ st with redelegations := st.redelegations.erase key } : Store A).EntriesInv where
  unbonding := hinv.unbonding
  redelegation {key'} _ h := by
    by_cases hk : key' = key
    · subst hk
      rw [Finmap.lookup_erase] at h
      cases h
    · exact hinv.redelegation ((Finmap.lookup_erase_ne hk).symm.trans h)

end Store.EntriesInv

namespace Keeper

variable {ε : Type} {s s' : State A ε}

theorem SameEntries.entriesInv (h : SameEntries s s') (hinv : s.store.EntriesInv) : s'.store.EntriesInv where
  unbonding hl := hinv.unbonding (h.unbondingDelegations ▸ hl)
  redelegation hl := hinv.redelegation (h.redelegations ▸ hl)

/-! ### Appending and dropping entries -/

@[simp] theorem getUnbondingDelegation_eq_ok {delAddr valAddr : A} {r : Option (UnbondingDelegation A)} :
    getUnbondingDelegation delAddr valAddr s = .ok (r, s') ↔
      (s.store.unbondingDelegations.lookup (delAddr, valAddr)).map (⟨delAddr, valAddr, ·⟩) = r ∧
        s = s' := by
  show Except.ok (_, s) = _ ↔ _
  simp

/-- `SetUnbondingDelegationEntry` appends the entry to the record of its key. -/
theorem setUnbondingDelegationEntry_eq_ok {delAddr valAddr : A} {creationHeight minTime balance : Int}
    {ubd : UnbondingDelegation A}
    (h : setUnbondingDelegationEntry delAddr valAddr creationHeight minTime balance s = .ok (ubd, s')) :
    ubd.delegatorAddress = delAddr ∧ ubd.validatorAddress = valAddr ∧
      s' = { s with store := { s.store with
        unbondingDelegations := s.store.unbondingDelegations.insert (delAddr, valAddr)
          ((s.store.unbondingDelegations.lookup (delAddr, valAddr)).getD [] ++
            [newUnbondingDelegationEntry creationHeight minTime balance]) } } := by
  unfold setUnbondingDelegationEntry at h
  obtain ⟨found, s₁, h₁, h⟩ := bind_eq_ok.1 h
  obtain ⟨hfound, rfl⟩ := getUnbondingDelegation_eq_ok.1 h₁
  obtain ⟨_, s₂, h₂, h⟩ := bind_eq_ok.1 h
  obtain ⟨rfl, rfl⟩ := pure_eq_ok.1 h
  dsimp only [setUnbondingDelegation] at h₂
  rw [modifyStore_eq_ok] at h₂
  subst hfound h₂
  cases s.store.unbondingDelegations.lookup (delAddr, valAddr) <;> exact ⟨rfl, rfl, rfl⟩

/-- `SetRedelegationEntry` appends the entry to the record of its three addresses. -/
theorem setRedelegationEntry_eq_ok {delAddr valSrcAddr valDstAddr : A}
    {creationHeight minTime balance : Int} {sharesDst : Dec} {red : Redelegation A}
    (h : setRedelegationEntry delAddr valSrcAddr valDstAddr creationHeight minTime balance sharesDst s =
      .ok (red, s')) :
    s' = { s with store := { s.store with
      redelegations := s.store.redelegations.insert (delAddr, valSrcAddr, valDstAddr)
        ((s.store.redelegations.lookup (delAddr, valSrcAddr, valDstAddr)).getD [] ++
          [⟨creationHeight, minTime, balance, sharesDst⟩]) } } := by
  unfold setRedelegationEntry at h
  obtain ⟨found, s₁, h₁, h⟩ := bind_eq_ok.1 h
  obtain ⟨hfound, rfl⟩ := getRedelegation_eq_ok.1 h₁
  obtain ⟨_, s₂, h₂, h⟩ := bind_eq_ok.1 h
  obtain ⟨-, rfl⟩ := pure_eq_ok.1 h
  rw [setRedelegation_eq_ok] at h₂
  subst hfound h₂
  cases s.store.redelegations.lookup (delAddr, valSrcAddr, valDstAddr) <;> rfl

/-- Appending an entry that satisfies `p` to a record whose entries do. -/
theorem forall_getD_append {β : Type} {p : β → Prop} {o : Option (List β)} {x : β}
    (ho : ∀ l, o = some l → ∀ e ∈ l, p e) (hx : p x) : ∀ e ∈ o.getD [] ++ [x], p e := by
  intro e he
  rcases List.mem_append.1 he with he | he
  · cases hol : o with
    | none => simp [hol] at he
    | some l => exact ho l hol e (by simpa [hol] using he)
  · rw [List.mem_singleton.1 he]
    exact hx

variable (k : Keeper A ε)

/-- `Undelegate` queues an entry of what the unbond paid, which a coin makes nonnegative. -/
theorem undelegate_entriesInv {ctx : Ctx} {delAddr valAddr : A} {sharesAmount : Dec} {r : Except Error Int}
    (hinv : s.store.EntriesInv) (h : k.undelegate ctx delAddr valAddr sharesAmount s = .ok (r, s')) :
    s'.store.EntriesInv := by
  unfold undelegate at h
  obtain ⟨⟨completionTime, height, completeNow⟩, s₁, e₁, h⟩ :=
    (sameBooks_getBeginInfo ctx valAddr).run_bind h
  obtain ⟨result, s₂, e₂, h⟩ := (sameEntries_unbond k ctx delAddr valAddr sharesAmount).run_bind h
  have hinv₂ := e₂.entriesInv (e₁.sameEntries.entriesInv hinv)
  cases result with
  | error _ =>
    obtain ⟨-, rfl⟩ := pure_eq_ok.1 h
    exact hinv₂
  | ok returnAmount =>
  dsimp only at h
  obtain ⟨_, s₃, e₃, h⟩ := sameBooks_getParams.run_bind h
  have hinv₃ := e₃.sameEntries.entriesInv hinv₂
  obtain ⟨balance, hcoin, h⟩ := lift_bind_eq_ok.1 h
  have hnonneg : 0 ≤ returnAmount := by
    unfold newCoin at hcoin
    split at hcoin
    · cases hcoin
    · omega
  split at h
  · -- paid out at once: only the bank moves
    refine (SameBooks.sameEntries ?_).entriesInv hinv₃
    refine (?_ : Guarantees SameBooks _) s₃ r s' h
    refine Guarantees.ite (fun _ => (sameBooks_onRest _).bind fun err => ?_) fun _ => Guarantees.pure _
    cases err <;> exact Guarantees.pure _
  obtain ⟨full, s₄, e₄, h⟩ := (sameBooks_hasMaxUnbondingDelegationEntries _ _).run_bind h
  have hinv₄ := e₄.sameEntries.entriesInv hinv₃
  split at h
  · obtain ⟨-, rfl⟩ := pure_eq_ok.1 h
    exact hinv₄
  obtain ⟨ubd, s₅, h₅, h⟩ := bind_eq_ok.1 h
  obtain ⟨-, -, rfl⟩ := setUnbondingDelegationEntry_eq_ok h₅
  obtain ⟨_, s₆, e₆, h⟩ := (sameBooks_insertUBDQueue _ _).run_bind h
  obtain ⟨-, rfl⟩ := pure_eq_ok.1 h
  refine e₆.sameEntries.entriesInv (hinv₄.insertUnbonding _ (forall_getD_append ?_ ⟨hnonneg, hnonneg⟩))
  exact fun l hl => hinv₄.unbonding hl

/-- `BeginRedelegation` of nonnegative shares records what the unbond paid, which the accounting
makes nonnegative. -/
theorem beginRedelegation_entriesInv {ctx : Ctx} {delAddr valSrcAddr valDstAddr : A} {sharesAmount : Dec}
    {r : Except Error Int} (hshares : s.store.ledger.SharesInv) (hamount : 0 ≤ sharesAmount.raw)
    (hinv : s.store.EntriesInv)
    (h : k.beginRedelegation ctx delAddr valSrcAddr valDstAddr sharesAmount s = .ok (r, s')) :
    s'.store.EntriesInv := by
  unfold beginRedelegation at h
  dsimp only at h
  split at h
  · obtain ⟨-, rfl⟩ := pure_eq_ok.1 h
    exact hinv
  -- the two checks read the store; the accounting is kept for the sign of what the unbond pays
  obtain ⟨_, s₁, h₁, h⟩ := bind_eq_ok.1 h
  have e₁ := sameBooks_hasReceivingRedelegation _ _ _ _ _ h₁
  have l₁ := keepsLedger_hasReceivingRedelegation _ _ _ _ _ h₁
  split at h
  · obtain ⟨-, rfl⟩ := pure_eq_ok.1 h
    exact e₁.sameEntries.entriesInv hinv
  obtain ⟨_, s₂, h₂, h⟩ := bind_eq_ok.1 h
  have e₂ := (sameBooks_hasMaxRedelegationEntries _ _ _ _ _ _ h₂).sameEntries
  have hinv₂ := e₂.entriesInv (e₁.sameEntries.entriesInv hinv)
  have hshares₂ := (keepsLedger_hasMaxRedelegationEntries _ _ _ _ _ _ h₂).sharesInv (l₁.sharesInv hshares)
  split at h
  · obtain ⟨-, rfl⟩ := pure_eq_ok.1 h
    exact hinv₂
  obtain ⟨result, s₃, h₃, h⟩ := bind_eq_ok.1 h
  have hinv₃ := (sameEntries_unbond k _ _ _ _ _ _ _ h₃).entriesInv hinv₂
  obtain ⟨-, hpaid, -⟩ := unbond_sharesInv k hshares₂ hamount h₃
  cases result with
  | error _ =>
    obtain ⟨-, rfl⟩ := pure_eq_ok.1 h
    exact hinv₃
  | ok returnAmount =>
  dsimp only at h
  split at h
  · obtain ⟨-, rfl⟩ := pure_eq_ok.1 h
    exact hinv₃
  obtain ⟨found, s₄, e₄, h⟩ := (sameBooks_getValidator _).run_bind h
  have hinv₄ := e₄.sameEntries.entriesInv hinv₃
  cases found with
  | none =>
    obtain ⟨-, rfl⟩ := pure_eq_ok.1 h
    exact hinv₄
  | some dstValidator =>
  dsimp only at h
  obtain ⟨result, s₅, e₅, h⟩ := (sameEntries_delegate k _ _ _ _ _).run_bind h
  have hinv₅ := e₅.entriesInv hinv₄
  cases result with
  | error _ =>
    obtain ⟨-, rfl⟩ := pure_eq_ok.1 h
    exact hinv₅
  | ok sharesCreated =>
  dsimp only at h
  obtain ⟨⟨completionTime, height, completeNow⟩, s₆, e₆, h⟩ := (sameBooks_getBeginInfo _ _).run_bind h
  have hinv₆ := e₆.sameEntries.entriesInv hinv₅
  dsimp only at h
  split at h
  · obtain ⟨-, rfl⟩ := pure_eq_ok.1 h
    exact hinv₆
  obtain ⟨red, s₇, h₇, h⟩ := bind_eq_ok.1 h
  rw [setRedelegationEntry_eq_ok h₇] at h
  obtain ⟨_, s₈, e₈, h⟩ := (sameBooks_insertRedelegationQueue _ _).run_bind h
  obtain ⟨-, rfl⟩ := pure_eq_ok.1 h
  exact e₈.sameEntries.entriesInv (hinv₆.insertRedelegation _
    (forall_getD_append (fun l hl => hinv₆.redelegation hl) (hpaid _ rfl)))

omit [LinearOrder A] in
/-- The loop of `CompleteUnbonding` keeps a sublist of the entries. -/
theorem completeUnbondingEntries_sublist (ctx : Ctx) (delAddr : A) :
    ∀ (entries : List UnbondingDelegationEntry) (s s' : State A ε) (kept : List UnbondingDelegationEntry),
      k.completeUnbondingEntries ctx delAddr entries s = .ok (.ok kept, s') → kept.Sublist entries
  | [], _, _, _, h => by
    obtain ⟨h, -⟩ := pure_eq_ok.1 h
    cases h
    exact List.nil_sublist _
  | entry :: entries, s, s', kept, h => by
    have ih := completeUnbondingEntries_sublist ctx delAddr entries
    rw [completeUnbondingEntries] at h
    split at h
    · -- a mature entry is paid out and dropped
      split at h
      · obtain ⟨_, s₁, -, h⟩ := sameBooks_getParams.run_bind h
        obtain ⟨_, -, h⟩ := lift_bind_eq_ok.1 h
        obtain ⟨err, s₂, -, h⟩ := (sameBooks_onRest _).run_bind h
        cases err with
        | some _ =>
          obtain ⟨h, -⟩ := pure_eq_ok.1 h
          cases h
        | none => exact (ih _ _ _ h).cons entry
      · exact (ih _ _ _ h).cons entry
    · obtain ⟨result, s₁, h₁, h⟩ := bind_eq_ok.1 h
      obtain ⟨hr, -⟩ := pure_eq_ok.1 h
      cases result with
      | error _ => cases hr
      | ok rest =>
        cases hr
        exact (ih _ _ _ h₁).cons_cons entry

/-- `CompleteUnbonding` writes back a sublist of the record's entries, or drops the record. -/
theorem completeUnbonding_entriesInv {ctx : Ctx} {delAddr valAddr : A} {r : Option Error}
    (hinv : s.store.EntriesInv) (h : k.completeUnbonding ctx delAddr valAddr s = .ok (r, s')) :
    s'.store.EntriesInv := by
  unfold completeUnbonding at h
  obtain ⟨found, s₁, h₁, h⟩ := bind_eq_ok.1 h
  obtain ⟨hfound, rfl⟩ := getUnbondingDelegation_eq_ok.1 h₁
  cases found with
  | none =>
    obtain ⟨-, rfl⟩ := pure_eq_ok.1 h
    exact hinv
  | some ubd =>
  obtain ⟨entries, hentries, rfl⟩ := Option.map_eq_some_iff.1 hfound
  dsimp only at h
  obtain ⟨result, s₂, h₂, h⟩ := bind_eq_ok.1 h
  have e₂ := sameBooks_completeUnbondingEntries k ctx delAddr entries _ _ _ h₂
  have hinv₂ := e₂.sameEntries.entriesInv hinv
  cases result with
  | error _ =>
    obtain ⟨-, rfl⟩ := pure_eq_ok.1 h
    exact hinv₂
  | ok kept =>
  have hsub := completeUnbondingEntries_sublist k ctx delAddr entries _ _ _ h₂
  dsimp only at h
  split at h
  · obtain ⟨_, s₃, h₃, h⟩ := bind_eq_ok.1 h
    obtain ⟨-, rfl⟩ := pure_eq_ok.1 h
    dsimp only [removeUnbondingDelegation] at h₃
    rw [modifyStore_eq_ok.1 h₃]
    exact hinv₂.eraseUnbonding _
  · obtain ⟨_, s₃, h₃, h⟩ := bind_eq_ok.1 h
    obtain ⟨-, rfl⟩ := pure_eq_ok.1 h
    dsimp only [setUnbondingDelegation] at h₃
    rw [modifyStore_eq_ok.1 h₃]
    exact hinv₂.insertUnbonding _ fun e he => hinv.unbonding hentries e (hsub.subset he)

/-- `CompleteRedelegation` keeps the immature entries of the record, or drops it. -/
theorem completeRedelegation_entriesInv {ctx : Ctx} {delAddr valSrcAddr valDstAddr : A}
    {r : Option Error} (hinv : s.store.EntriesInv)
    (h : completeRedelegation ctx delAddr valSrcAddr valDstAddr s = .ok (r, s')) :
    s'.store.EntriesInv := by
  unfold completeRedelegation at h
  obtain ⟨found, s₁, h₁, h⟩ := bind_eq_ok.1 h
  obtain ⟨hfound, rfl⟩ := getRedelegation_eq_ok.1 h₁
  cases found with
  | none =>
    obtain ⟨-, rfl⟩ := pure_eq_ok.1 h
    exact hinv
  | some red =>
  obtain ⟨entries, hentries, rfl⟩ := Option.map_eq_some_iff.1 hfound
  dsimp only at h
  split at h
  · obtain ⟨_, s₂, h₂, h⟩ := bind_eq_ok.1 h
    obtain ⟨-, rfl⟩ := pure_eq_ok.1 h
    rw [removeRedelegation_eq_ok.1 h₂]
    exact hinv.eraseRedelegation _
  · obtain ⟨_, s₂, h₂, h⟩ := bind_eq_ok.1 h
    obtain ⟨-, rfl⟩ := pure_eq_ok.1 h
    rw [setRedelegation_eq_ok.1 h₂]
    exact hinv.insertRedelegation _ fun e he => hinv.redelegation hentries e (List.mem_filter.1 he).1

end Keeper

end CosmosSdk.Staking
