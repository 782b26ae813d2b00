import CosmosSdk.Staking.Handler

/-!
# What the staking keeper does to the rest of the application

The staking keeper reaches the rest of the application only through its hooks and its bank keeper
(`onRest`); every other step of a keeper method reads or writes the staking store.  So a relation on
the rest that every hook and bank call keeps is kept by the runs of the keeper's methods.
`KeepsRest R k` says that each hook and bank call of `k` changes the rest only as the preorder `R`
allows, and the lemmas below carry it through the methods: those the slashing module calls (`Slash`,
`Jail`, `Unjail`) and `MsgCreateValidator`, with what they call.
-/

namespace CosmosSdk.Staking

open StateExcept

variable {A ε : Type} [LinearOrder A]

/-- The rests of the two states are related by `R`. -/
def RestRel (R : ε → ε → Prop) (s s' : State A ε) : Prop := R s.rest s'.rest

instance {R : ε → ε → Prop} [Std.Refl R] : Std.Refl (RestRel (A := A) R) :=
  ⟨fun s => Std.Refl.refl s.rest⟩

instance {R : ε → ε → Prop} [IsTrans ε R] : IsTrans (State A ε) (RestRel R) :=
  ⟨fun a b c h₁ h₂ => show R a.rest c.rest from IsTrans.trans _ b.rest _ h₁ h₂⟩

/-- Every hook and bank call of `k` changes the rest only as `R` allows. -/
structure KeepsRest (R : ε → ε → Prop) (k : Keeper A ε) : Prop where
  afterValidatorCreated : ∀ ctx st valAddr, Guarantees R (k.hooks.afterValidatorCreated ctx st valAddr)
  beforeValidatorModified : ∀ ctx st valAddr,
    Guarantees R (k.hooks.beforeValidatorModified ctx st valAddr)
  afterValidatorRemoved : ∀ ctx st consAddr valAddr,
    Guarantees R (k.hooks.afterValidatorRemoved ctx st consAddr valAddr)
  afterValidatorBonded : ∀ ctx st consAddr valAddr,
    Guarantees R (k.hooks.afterValidatorBonded ctx st consAddr valAddr)
  afterValidatorBeginUnbonding : ∀ ctx st consAddr valAddr,
    Guarantees R (k.hooks.afterValidatorBeginUnbonding ctx st consAddr valAddr)
  beforeDelegationCreated : ∀ ctx st delAddr valAddr,
    Guarantees R (k.hooks.beforeDelegationCreated ctx st delAddr valAddr)
  beforeDelegationSharesModified : ∀ ctx st delAddr valAddr,
    Guarantees R (k.hooks.beforeDelegationSharesModified ctx st delAddr valAddr)
  beforeDelegationRemoved : ∀ ctx st delAddr valAddr,
    Guarantees R (k.hooks.beforeDelegationRemoved ctx st delAddr valAddr)
  afterDelegationModified : ∀ ctx st delAddr valAddr,
    Guarantees R (k.hooks.afterDelegationModified ctx st delAddr valAddr)
  beforeValidatorSlashed : ∀ ctx st valAddr fraction,
    Guarantees R (k.hooks.beforeValidatorSlashed ctx st valAddr fraction)
  delegateCoins : ∀ ctx addr denom amount,
    Guarantees R (k.bankKeeper.delegateCoins ctx addr denom amount)
  undelegateCoins : ∀ ctx addr denom amount,
    Guarantees R (k.bankKeeper.undelegateCoins ctx addr denom amount)

namespace Keeper

variable {R : ε → ε → Prop}

/-! ### The store accessors -/

omit [LinearOrder A] in
theorem restRel_onRest {α : Type} {f : Store A → StateT ε (Except Panic) α}
    (hf : ∀ st, Guarantees R (f st)) : Guarantees (RestRel R) (onRest f) := by
  intro s a s' h
  obtain ⟨rest, hrun, rfl⟩ := onRest_eq_ok.1 h
  exact hf s.store s.rest a rest hrun

variable [Std.Refl R]

omit [LinearOrder A] in
theorem restRel_modifyStore (f : Store A → Store A) :
    Guarantees (RestRel R) (modifyStore (ε := ε) f) := by
  intro s u s' h
  rw [modifyStore_eq_ok.1 h]
  exact Std.Refl.refl s.rest

omit [LinearOrder A] in
theorem restRel_getStore : Guarantees (RestRel R) (getStore (A := A) (ε := ε)) := by
  intro s st s' h
  rw [← (getStore_eq_ok.1 h).2]
  exact Std.Refl.refl s.rest

theorem restRel_setDelegation (d : Delegation A) :
    Guarantees (RestRel R) (setDelegation (ε := ε) d) := by
  dsimp only [setDelegation]
  exact restRel_modifyStore _

theorem restRel_setUnbondingDelegation (ubd : UnbondingDelegation A) :
    Guarantees (RestRel R) (setUnbondingDelegation (ε := ε) ubd) := by
  dsimp only [setUnbondingDelegation]
  exact restRel_modifyStore _

variable [IsTrans ε R]

theorem restRel_getValidator (addr : A) : Guarantees (RestRel R) (getValidator (ε := ε) addr) :=
  restRel_getStore.bind fun _ => Guarantees.pure _

theorem restRel_mustGetValidator (addr : A) :
    Guarantees (RestRel R) (mustGetValidator (ε := ε) addr) := by
  unfold mustGetValidator
  refine (restRel_getValidator addr).bind fun found => ?_
  cases found with
  | some _ => exact Guarantees.pure _
  | none => exact Guarantees.throw _

theorem restRel_getValidatorByConsAddr (consAddr : A) :
    Guarantees (RestRel R) (getValidatorByConsAddr (ε := ε) consAddr) := by
  unfold getValidatorByConsAddr
  refine restRel_getStore.bind fun st => ?_
  split
  · exact restRel_getValidator _
  · exact Guarantees.pure _

theorem restRel_mustGetValidatorByConsAddr (consAddr : A) :
    Guarantees (RestRel R) (mustGetValidatorByConsAddr (ε := ε) consAddr) := by
  unfold mustGetValidatorByConsAddr
  refine (restRel_getValidatorByConsAddr consAddr).bind fun found => ?_
  cases found with
  | some _ => exact Guarantees.pure _
  | none => exact Guarantees.throw _

omit [LinearOrder A] in
theorem restRel_getPool : Guarantees (RestRel R) (getPool (A := A) (ε := ε)) :=
  restRel_getStore.bind fun _ => Guarantees.pure _

omit [LinearOrder A] in
theorem restRel_getParams : Guarantees (RestRel R) (getParams (A := A) (ε := ε)) :=
  restRel_getStore.bind fun _ => Guarantees.pure _

theorem restRel_getDelegation (delAddr valAddr : A) :
    Guarantees (RestRel R) (getDelegation (ε := ε) delAddr valAddr) :=
  restRel_getStore.bind fun _ => Guarantees.pure _

theorem restRel_setValidatorByPowerIndex (v : Validator A) :
    Guarantees (RestRel R) (setValidatorByPowerIndex (ε := ε) v) := by
  unfold setValidatorByPowerIndex
  exact Guarantees.ite (fun _ => Guarantees.pure _)
    (fun _ => (Guarantees.lift _).bind fun _ => restRel_modifyStore _)

theorem restRel_deleteValidatorByPowerIndex (v : Validator A) :
    Guarantees (RestRel R) (deleteValidatorByPowerIndex (ε := ε) v) :=
  (Guarantees.lift _).bind fun _ => restRel_modifyStore _

theorem restRel_setNewValidatorByPowerIndex (v : Validator A) :
    Guarantees (RestRel R) (setNewValidatorByPowerIndex (ε := ε) v) :=
  (Guarantees.lift _).bind fun _ => restRel_modifyStore _

/-! ### Validator records -/

theorem restRel_addValidatorTokensAndShares (v : Validator A) (amount : Int) :
    Guarantees (RestRel R) (addValidatorTokensAndShares (ε := ε) v amount) :=
  (restRel_deleteValidatorByPowerIndex v).bind fun _ => restRel_getPool.bind fun _ =>
    (Guarantees.lift _).bind fun _ => (restRel_modifyStore _).bind fun _ =>
      (restRel_modifyStore _).bind fun _ => (restRel_setValidatorByPowerIndex _).bind fun _ =>
        Guarantees.pure _

theorem restRel_removeValidatorTokensAndShares (v : Validator A) (shares : Dec) :
    Guarantees (RestRel R) (removeValidatorTokensAndShares (ε := ε) v shares) :=
  (restRel_deleteValidatorByPowerIndex v).bind fun _ => restRel_getPool.bind fun _ =>
    (Guarantees.lift _).bind fun _ => (restRel_modifyStore _).bind fun _ =>
      (restRel_modifyStore _).bind fun _ => (restRel_setValidatorByPowerIndex _).bind fun _ =>
        Guarantees.pure _

theorem restRel_removeValidatorTokens (v : Validator A) (tokens : Int) :
    Guarantees (RestRel R) (removeValidatorTokens (ε := ε) v tokens) :=
  (restRel_deleteValidatorByPowerIndex v).bind fun _ => restRel_getPool.bind fun _ =>
    (Guarantees.lift _).bind fun _ => (restRel_modifyStore _).bind fun _ =>
      (restRel_modifyStore _).bind fun _ => (restRel_setValidatorByPowerIndex _).bind fun _ =>
        Guarantees.pure _

theorem restRel_jailValidator (v : Validator A) :
    Guarantees (RestRel R) (jailValidator (ε := ε) v) := by
  unfold jailValidator
  dsimp only
  split
  · exact Guarantees.throw_bind _
  · exact (restRel_modifyStore _).bind fun _ => restRel_deleteValidatorByPowerIndex _

theorem restRel_jail (consAddr : A) : Guarantees (RestRel R) (jail (ε := ε) consAddr) :=
  (restRel_mustGetValidatorByConsAddr consAddr).bind fun _ => restRel_jailValidator _

/-! ### Delegations -/

variable (k : Keeper A ε)

theorem restRel_removeDelegation (hk : KeepsRest R k) (ctx : Ctx) (d : Delegation A) :
    Guarantees (RestRel R) (k.removeDelegation ctx d) :=
  (restRel_onRest fun _ => hk.beforeDelegationRemoved _ _ _ _).bind fun _ => restRel_modifyStore _

theorem restRel_removeValidator (hk : KeepsRest R k) (ctx : Ctx) (address : A) :
    Guarantees (RestRel R) (k.removeValidator ctx address) := by
  unfold removeValidator
  refine (restRel_getValidator address).bind fun found => ?_
  cases found with
  | none => exact Guarantees.pure _
  | some validator =>
    dsimp only
    split
    · exact Guarantees.throw_bind _
    split
    · exact Guarantees.throw_bind _
    exact (Guarantees.lift _).bind fun _ => (restRel_modifyStore _).bind fun _ =>
      restRel_onRest fun _ => hk.afterValidatorRemoved _ _ _ _

theorem restRel_delegate (hk : KeepsRest R k) (ctx : Ctx) (delAddr : A) (bondAmt : Int)
    (validator : Validator A) (sub : Bool) :
    Guarantees (RestRel R) (k.delegate ctx delAddr bondAmt validator sub) := by
  unfold delegate
  dsimp only
  refine Guarantees.ite (fun _ => Guarantees.pure _) fun _ => ?_
  refine (restRel_getDelegation _ _).bind fun found => ?_
  refine Guarantees.bind ?_ fun _ => ?_
  · cases found with
    | some _ => exact restRel_onRest fun _ => hk.beforeDelegationSharesModified _ _ _ _
    | none => exact restRel_onRest fun _ => hk.beforeDelegationCreated _ _ _ _
  refine Guarantees.bind (Guarantees.ite (fun _ => restRel_getParams.bind fun _ =>
    (Guarantees.lift _).bind fun _ => restRel_onRest fun _ => hk.delegateCoins _ _ _ _)
    fun _ => Guarantees.pure _) fun bankErr => ?_
  cases bankErr with
  | some _ => exact Guarantees.pure _
  | none =>
    exact (restRel_addValidatorTokensAndShares _ _).bind fun _ => (Guarantees.lift _).bind fun _ =>
      (restRel_setDelegation _).bind fun _ =>
        (restRel_onRest fun _ => hk.afterDelegationModified _ _ _ _).bind fun _ => Guarantees.pure _

theorem restRel_unbond (hk : KeepsRest R k) (ctx : Ctx) (delAddr valAddr : A) (shares : Dec) :
    Guarantees (RestRel R) (k.unbond ctx delAddr valAddr shares) := by
  unfold unbond
  dsimp only
  refine (restRel_getDelegation _ _).bind fun found => ?_
  cases found with
  | none => exact Guarantees.pure _
  | some delegation =>
    refine (restRel_onRest fun _ => hk.beforeDelegationSharesModified _ _ _ _).bind fun _ => ?_
    refine Guarantees.ite (fun _ => Guarantees.pure _) fun _ => ?_
    refine (restRel_getValidator _).bind fun found => ?_
    cases found with
    | none => exact Guarantees.pure _
    | some validator =>
      refine (Guarantees.lift _).bind fun remaining => ?_
      refine Guarantees.bind ?_ fun validator => ?_
      · -- the jailing of the operator's own validator
        refine Guarantees.ite (fun _ => ?_) fun _ => Guarantees.pure _
        exact (Guarantees.lift _).bind fun _ => (Guarantees.lift _).bind fun _ =>
          Guarantees.ite (fun _ => (restRel_jailValidator _).bind fun _ => restRel_mustGetValidator _)
            fun _ => Guarantees.pure _
      refine Guarantees.bind ?_ fun _ => ?_
      · exact Guarantees.ite (fun _ => restRel_removeDelegation k hk _ _) fun _ =>
          (restRel_setDelegation _).bind fun _ => restRel_onRest fun _ => hk.afterDelegationModified _ _ _ _
      refine (restRel_removeValidatorTokensAndShares _ _).bind fun _ => ?_
      exact Guarantees.bind (Guarantees.ite (fun _ => restRel_removeValidator k hk _ _)
        fun _ => Guarantees.pure _) fun _ => Guarantees.pure _

/-! ### Slashing -/

theorem restRel_slashUnbondingEntries (ctx : Ctx) (delAddr valAddr : A) (infractionHeight : Int)
    (slashFactor : Dec) :
    ∀ (done entries : List UnbondingDelegationEntry) (total : Int),
      Guarantees (RestRel R) (slashUnbondingEntries (ε := ε) ctx delAddr valAddr infractionHeight
        slashFactor done entries total)
  | _, [], _ => Guarantees.pure _
  | done, entry :: entries, total => by
    have ih : ∀ done total, Guarantees (RestRel R) (slashUnbondingEntries (ε := ε) ctx delAddr valAddr
        infractionHeight slashFactor done entries total) := fun done total =>
      restRel_slashUnbondingEntries ctx delAddr valAddr infractionHeight slashFactor done entries total
    rw [slashUnbondingEntries]
    dsimp only
    refine Guarantees.ite (fun _ => ih _ _) fun _ => ?_
    refine (Guarantees.lift _).bind fun _ => (Guarantees.lift _).bind fun _ =>
      (Guarantees.lift _).bind fun _ => ?_
    refine Guarantees.ite (fun _ => ih _ _) fun _ => ?_
    exact (Guarantees.lift _).bind fun _ => (restRel_setUnbondingDelegation _).bind fun _ =>
      restRel_getPool.bind fun _ => (Guarantees.lift _).bind fun _ =>
        (restRel_modifyStore _).bind fun _ => ih _ _

theorem restRel_slashUnbondingDelegations (ctx : Ctx) (infractionHeight : Int) (slashFactor : Dec) :
    ∀ (ubds : List (UnbondingDelegation A)) (remaining : Int),
      Guarantees (RestRel R) (slashUnbondingDelegations (ε := ε) ctx infractionHeight slashFactor
        ubds remaining)
  | [], _ => Guarantees.pure _
  | ubd :: ubds, remaining => by
    rw [slashUnbondingDelegations]
    exact (restRel_slashUnbondingEntries _ _ _ _ _ _ _ _).bind fun _ =>
      (Guarantees.ite (fun _ => Guarantees.pure _) fun _ => Guarantees.lift _).bind fun _ =>
        restRel_slashUnbondingDelegations ctx infractionHeight slashFactor ubds _

theorem restRel_slashRedelegationEntries (hk : KeepsRest R k) (ctx : Ctx) (delAddr valDstAddr : A)
    (infractionHeight : Int) (slashFactor : Dec) :
    ∀ (entries : List RedelegationEntry) (total : Int),
      Guarantees (RestRel R) (k.slashRedelegationEntries ctx delAddr valDstAddr infractionHeight
        slashFactor entries total)
  | [], _ => Guarantees.pure _
  | entry :: entries, total => by
    have ih : ∀ total, Guarantees (RestRel R) (k.slashRedelegationEntries ctx delAddr valDstAddr
        infractionHeight slashFactor entries total) := fun total =>
      restRel_slashRedelegationEntries hk ctx delAddr valDstAddr infractionHeight slashFactor entries total
    rw [slashRedelegationEntries]
    dsimp only
    refine Guarantees.ite (fun _ => ih _) fun _ => ?_
    refine (Guarantees.lift _).bind fun _ => (Guarantees.lift _).bind fun _ =>
      (Guarantees.lift _).bind fun _ => (Guarantees.lift _).bind fun _ => ?_
    refine Guarantees.ite (fun _ => ih _) fun _ => ?_
    refine (restRel_getDelegation _ _).bind fun found => ?_
    cases found with
    | none => exact ih _
    | some delegation =>
      refine (restRel_unbond k hk _ _ _ _).bind fun result => ?_
      cases result with
      | error _ => exact Guarantees.throw _
      | ok _ =>
        exact restRel_getPool.bind fun _ => (Guarantees.lift _).bind fun _ =>
          (restRel_modifyStore _).bind fun _ => ih _

theorem restRel_slashRedelegations (hk : KeepsRest R k) (ctx : Ctx) (infractionHeight : Int)
    (slashFactor : Dec) :
    ∀ (reds : List (Redelegation A)) (remaining : Int),
      Guarantees (RestRel R) (k.slashRedelegations ctx infractionHeight slashFactor reds remaining)
  | [], _ => Guarantees.pure _
  | red :: reds, remaining => by
    rw [slashRedelegations]
    exact (restRel_slashRedelegationEntries k hk _ _ _ _ _ _ _).bind fun _ =>
      (Guarantees.ite (fun _ => Guarantees.pure _) fun _ => Guarantees.lift _).bind fun _ =>
        restRel_slashRedelegations hk ctx infractionHeight slashFactor reds _

theorem restRel_slash (hk : KeepsRest R k) (ctx : Ctx) (consAddr : A) (infractionHeight power : Int)
    (slashFactor : Dec) :
    Guarantees (RestRel R) (k.slash ctx consAddr infractionHeight power slashFactor) := by
  unfold slash
  dsimp only
  split
  · exact Guarantees.throw_bind _
  refine (Guarantees.lift _).bind fun _ => (Guarantees.lift _).bind fun _ =>
    (Guarantees.lift _).bind fun _ => ?_
  refine (restRel_getValidatorByConsAddr _).bind fun found => ?_
  cases found with
  | none => exact Guarantees.pure _
  | some validator =>
    dsimp only
    split
    · exact Guarantees.throw_bind _
    refine (restRel_onRest fun _ => hk.beforeValidatorModified _ _ _).bind fun _ => ?_
    refine Guarantees.bind ?_ fun _ => ?_
    · -- the unbonding delegations and redelegations are slashed first
      refine Guarantees.ite (fun _ => Guarantees.throw _) fun _ =>
        Guarantees.ite (fun _ => Guarantees.pure _) fun _ => ?_
      exact (restRel_getStore.bind fun _ => Guarantees.pure _).bind fun _ =>
        (restRel_slashUnbondingDelegations _ _ _ _ _).bind fun _ =>
          (restRel_getStore.bind fun _ => Guarantees.pure _).bind fun _ =>
            restRel_slashRedelegations k hk _ _ _ _ _
    refine Guarantees.bind ?_ fun _ => ?_
    · refine Guarantees.ite (fun _ => ?_) fun _ => Guarantees.pure _
      exact (Guarantees.lift _).bind fun _ =>
        restRel_onRest fun _ => hk.beforeValidatorSlashed _ _ _ _
    exact (restRel_removeValidatorTokens _ _).bind fun _ => restRel_getPool.bind fun _ =>
      (Guarantees.lift _).bind fun _ => restRel_modifyStore _

/-! ### Creating a validator -/

theorem restRel_handleMsgCreateValidator (hk : KeepsRest R k) (ctx : Ctx) (description : Description)
    (commission : CommissionMsg) (minSelfDelegation : Int) (delegatorAddress validatorAddress pubKey : A)
    (value : Coin) :
    Guarantees (RestRel R) (k.handleMsgCreateValidator ctx description commission minSelfDelegation
      delegatorAddress validatorAddress pubKey value) := by
  unfold handleMsgCreateValidator
  dsimp only
  refine (restRel_getValidator _).bind fun _ => ?_
  refine Guarantees.ite (fun _ => Guarantees.pure _) fun _ => ?_
  refine (restRel_getValidatorByConsAddr _).bind fun _ => ?_
  refine Guarantees.ite (fun _ => Guarantees.pure _) fun _ => ?_
  refine restRel_getParams.bind fun _ => ?_
  refine Guarantees.ite (fun _ => Guarantees.pure _) fun _ => ?_
  split
  · exact Guarantees.pure _
  split
  · exact Guarantees.pure _
  refine (restRel_modifyStore _).bind fun _ => (restRel_modifyStore _).bind fun _ =>
    (restRel_setNewValidatorByPowerIndex _).bind fun _ =>
      (restRel_onRest fun _ => hk.afterValidatorCreated _ _ _).bind fun _ => ?_
  refine (restRel_delegate k hk _ _ _ _ _).bind fun r => ?_
  cases r <;> exact Guarantees.pure _

end Keeper

end CosmosSdk.Staking
