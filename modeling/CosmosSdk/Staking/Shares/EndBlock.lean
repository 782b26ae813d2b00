import CosmosSdk.Staking.Shares.Methods
import CosmosSdk.Staking.Handler

/-!
# The end of a block keeps the accounting

The validator-set updates and the mature validator queue move validators between statuses without
touching their shares; a validator of the queue is removed only when it has no shares.  Completing
unbondings touches no ledger record, and completing redelegations drops entries of a record.
-/

namespace CosmosSdk.Staking

open StateExcept

variable {A : Type} [LinearOrder A]

namespace Keeper

/-! ### Validator-set updates -/

section SetUpdates

variable {ε : Type} (k : Keeper A ε)

theorem bondTopValidators_keepsShares (ctx : Ctx) (maxValidators : Nat) :
    ∀ (valAddrs : List A) (count : Nat) (last : MemDB A Int) (updates : List (ValidatorUpdate A))
      (totalPower : Int),
      KeepsShares (k.bondTopValidators ctx maxValidators valAddrs count last updates totalPower)
  | [], _, _, _, _ => KeepsShares.of_keepsLedger (Guarantees.pure _)
  | valAddr :: valAddrs, count, last, updates, totalPower => by
    intro s r s' hinv h
    unfold bondTopValidators at h
    dsimp only at h
    split at h
    · obtain ⟨-, rfl⟩ := pure_eq_ok.1 h
      exact hinv
    rw [bind_eq_ok] at h
    obtain ⟨v, s₁, h₁, h⟩ := h
    obtain ⟨hv, rfl⟩ := mustGetValidator_eq_ok.1 h₁
    have hop : v.operatorAddress = valAddr := hinv.operator_eq hv
    subst hop
    split at h
    · exact absurd h throw_bind_ne_ok
    rw [bind_eq_ok] at h
    obtain ⟨power, s₂, h₂, h⟩ := h
    obtain ⟨-, rfl⟩ := lift_eq_ok.1 h₂
    split at h
    · obtain ⟨-, rfl⟩ := pure_eq_ok.1 h
      exact hinv
    rw [bind_eq_ok] at h
    obtain ⟨v', s₃, h₃, h⟩ := h
    have hinv₃ : s₃.store.ledger.SharesInv := by
      cases hstatus : v.status with
      | unbonded =>
        simp only [hstatus] at h₃
        obtain ⟨rfl, e⟩ := unbondedToBonded_ledger k h₃
        exact sharesInv_of_restake hinv hv e rfl rfl rfl
      | unbonding =>
        simp only [hstatus] at h₃
        obtain ⟨rfl, e⟩ := unbondingToBonded_ledger k h₃
        exact sharesInv_of_restake hinv hv e rfl rfl rfl
      | bonded =>
        simp only [hstatus] at h₃
        obtain ⟨-, rfl⟩ := pure_eq_ok.1 h₃
        exact hinv
    rw [bind_eq_ok] at h
    obtain ⟨newPower, s₄, h₄, h⟩ := h
    obtain ⟨-, rfl⟩ := lift_eq_ok.1 h₄
    obtain ⟨updates', s₅, e₅, h⟩ := (Guarantees.ite
      (fun _ => (keepsLedger_setLastValidatorPower _ _).bind fun _ => Guarantees.pure _)
      (fun _ => Guarantees.pure _)).run_bind h
    rw [bind_eq_ok] at h
    obtain ⟨totalPower', s₆, h₆, h⟩ := h
    obtain ⟨-, rfl⟩ := lift_eq_ok.1 h₆
    exact bondTopValidators_keepsShares ctx maxValidators valAddrs _ _ _ _ s₅ r s' (e₅.sharesInv hinv₃) h

theorem unbondNoLongerBonded_keepsShares (ctx : Ctx) :
    ∀ (valAddrs : List A) (updates : List (ValidatorUpdate A)),
      KeepsShares (k.unbondNoLongerBonded ctx valAddrs updates)
  | [], _ => KeepsShares.of_keepsLedger (Guarantees.pure _)
  | valAddr :: valAddrs, updates => by
    intro s r s' hinv h
    unfold unbondNoLongerBonded at h
    rw [bind_eq_ok] at h
    obtain ⟨v, s₁, h₁, h⟩ := h
    obtain ⟨hv, rfl⟩ := mustGetValidator_eq_ok.1 h₁
    have hop : v.operatorAddress = valAddr := hinv.operator_eq hv
    subst hop
    rw [bind_eq_ok] at h
    obtain ⟨v', s₂, h₂, h⟩ := h
    obtain ⟨rfl, e₂⟩ := bondedToUnbonding_ledger k h₂
    have hinv₂ := sharesInv_of_restake hinv hv e₂ rfl rfl rfl
    obtain ⟨_, s₃, e₃, h⟩ := (keepsLedger_deleteLastValidatorPower _).run_bind h
    exact unbondNoLongerBonded_keepsShares ctx valAddrs _ s₃ r s' (e₃.sharesInv hinv₂) h

theorem applyAndReturnValidatorSetUpdates_keepsShares (ctx : Ctx) :
    KeepsShares (k.applyAndReturnValidatorSetUpdates ctx) := by
  unfold applyAndReturnValidatorSetUpdates
  refine (KeepsShares.of_keepsLedger keepsLedger_getParams).bind fun _ => ?_
  refine (KeepsShares.of_keepsLedger keepsLedger_getStore).bind fun _ => ?_
  refine (bondTopValidators_keepsShares k ctx _ _ 0 _ [] 0).bind fun ⟨last, updates, totalPower⟩ => ?_
  refine (unbondNoLongerBonded_keepsShares k ctx _ _).bind fun _ => ?_
  exact KeepsShares.of_keepsLedger (Guarantees.ite
    (fun _ => (keepsLedger_setLastTotalPower _).bind fun _ => Guarantees.pure _)
    (fun _ => Guarantees.pure _))

theorem unbondMatureValidators_keepsShares (ctx : Ctx) :
    ∀ valAddrs : List A, KeepsShares (k.unbondMatureValidators ctx valAddrs)
  | [] => KeepsShares.of_keepsLedger (Guarantees.pure _)
  | valAddr :: valAddrs => by
    intro s r s' hinv h
    unfold unbondMatureValidators at h
    dsimp only at h
    rw [bind_eq_ok] at h
    obtain ⟨found, s₁, h₁, h⟩ := h
    obtain ⟨hfound, rfl⟩ := getValidator_eq_ok.1 h₁
    cases found with
    | none => exact absurd h throw_ne_ok
    | some val =>
    dsimp only at h
    split at h
    · exact absurd h throw_bind_ne_ok
    have hop : val.operatorAddress = valAddr := hinv.operator_eq hfound
    subst hop
    rw [bind_eq_ok] at h
    obtain ⟨v', s₂, h₂, h⟩ := h
    obtain ⟨rfl, e₂⟩ := unbondingToUnbonded_ledger h₂
    have hinv₂ := sharesInv_of_restake hinv hfound e₂ rfl rfl rfl
    rw [bind_eq_ok] at h
    obtain ⟨_, s₃, h₃, h⟩ := h
    -- a validator without shares left is removed once unbonded
    have hinv₃ : s₃.store.ledger.SharesInv := by
      split at h₃
      · rename_i hzero
        rw [removeValidator_ledger k h₃]
        have hv₂ : s₂.store.validators.lookup val.operatorAddress = some { val with status := .unbonded } := by
          rw [Store.validators_eq_of_ledger e₂]
          exact Finmap.lookup_insert _
        exact hinv₂.removeValidator hv₂ (by simpa [Dec.isZero] using hzero)
      · obtain ⟨-, rfl⟩ := pure_eq_ok.1 h₃
        exact hinv₂
    exact unbondMatureValidators_keepsShares ctx valAddrs s₃ r s' hinv₃ h

theorem unbondAllMatureValidatorQueue_keepsShares (ctx : Ctx) :
    KeepsShares (k.unbondAllMatureValidatorQueue ctx) := by
  unfold unbondAllMatureValidatorQueue
  refine (KeepsShares.of_keepsLedger keepsLedger_getStore).bind fun _ => ?_
  refine Triple.forM fun ⟨time, timeslice⟩ _ => ?_
  exact (unbondMatureValidators_keepsShares k ctx timeslice).bind fun _ =>
    KeepsShares.of_keepsLedger (keepsLedger_modifyStore fun _ => rfl)

/-! ### The end of a block -/

omit [LinearOrder A] in
theorem keepsLedger_completeUnbondingEntries (ctx : Ctx) (delAddr : A) :
    ∀ entries, Guarantees SameLedger (k.completeUnbondingEntries ctx delAddr entries)
  | [] => Guarantees.pure _
  | entry :: entries => by
    have ih := keepsLedger_completeUnbondingEntries ctx delAddr entries
    unfold completeUnbondingEntries
    dsimp only
    refine Guarantees.ite (fun _ => Guarantees.ite (fun _ => ?_) fun _ => ih)
      fun _ => ih.bind fun _ => Guarantees.pure _
    refine keepsLedger_getParams.bind fun _ => (Guarantees.lift _).bind fun _ =>
      (keepsLedger_onRest _).bind fun bankErr => ?_
    cases bankErr with
    | none => exact ih
    | some _ => exact Guarantees.pure _

theorem keepsLedger_completeUnbonding (ctx : Ctx) (delAddr valAddr : A) :
    Guarantees SameLedger (k.completeUnbonding ctx delAddr valAddr) := by
  unfold completeUnbonding
  refine (keepsLedger_getUnbondingDelegation _ _).bind fun found => ?_
  cases found with
  | none => exact Guarantees.pure _
  | some ubd =>
  refine (keepsLedger_completeUnbondingEntries k ctx _ _).bind fun result => ?_
  cases result with
  | error _ => exact Guarantees.pure _
  | ok entries =>
    exact Guarantees.ite
      (fun _ => (keepsLedger_removeUnbondingDelegation _).bind fun _ => Guarantees.pure _)
      (fun _ => (keepsLedger_setUnbondingDelegation _).bind fun _ => Guarantees.pure _)

/-- `CompleteRedelegation` keeps only entries of the record it reads. -/
theorem completeRedelegation_keepsShares (ctx : Ctx) (delAddr valSrcAddr valDstAddr : A) :
    KeepsShares (completeRedelegation (ε := ε) ctx delAddr valSrcAddr valDstAddr) := by
  intro s r s' hinv h
  unfold completeRedelegation at h
  dsimp only at h
  rw [bind_eq_ok] at h
  obtain ⟨found, s₁, h₁, h⟩ := h
  obtain ⟨hfound, rfl⟩ := getRedelegation_eq_ok.1 h₁
  cases found with
  | none =>
    obtain ⟨-, rfl⟩ := pure_eq_ok.1 h
    exact hinv
  | some red =>
  obtain ⟨entries, hentries, rfl⟩ := Option.map_eq_some_iff.1 hfound
  dsimp only at h
  -- the mature entries go, and the record with them when none is left
  split at h
  · rw [bind_eq_ok] at h
    obtain ⟨_, s₂, h₂, h⟩ := h
    obtain ⟨-, rfl⟩ := pure_eq_ok.1 h
    rw [removeRedelegation_eq_ok] at h₂
    subst h₂
    exact hinv.removeRedelegation _
  · rw [bind_eq_ok] at h
    obtain ⟨_, s₂, h₂, h⟩ := h
    obtain ⟨-, rfl⟩ := pure_eq_ok.1 h
    rw [setRedelegation_eq_ok] at h₂
    subst h₂
    exact hinv.setRedelegation (hinv.redelegation_ne hentries)
      fun e he => hinv.sharesDst_nonneg hentries e (List.mem_of_mem_filter he)

theorem endBlocker_keepsShares (ctx : Ctx) : KeepsShares (k.endBlocker ctx) := by
  unfold endBlocker
  refine (applyAndReturnValidatorSetUpdates_keepsShares k ctx).bind fun _ => ?_
  refine (unbondAllMatureValidatorQueue_keepsShares k ctx).bind fun _ => ?_
  refine (KeepsShares.of_keepsLedger (keepsLedger_dequeueAllMatureUBDQueue ctx)).bind fun _ => ?_
  refine (Triple.forM fun _ _ => KeepsShares.of_keepsLedger
    ((keepsLedger_completeUnbonding k ctx _ _).bind fun _ => Guarantees.pure _)).bind fun _ => ?_
  refine (KeepsShares.of_keepsLedger (keepsLedger_dequeueAllMatureRedelegationQueue ctx)).bind
    fun _ => ?_
  refine (Triple.forM fun _ _ => (completeRedelegation_keepsShares ctx _ _ _).bind fun _ =>
    KeepsShares.of_keepsLedger (Guarantees.pure _)).bind fun _ => ?_
  exact KeepsShares.of_keepsLedger (Guarantees.pure _)

end SetUpdates

end Keeper

end CosmosSdk.Staking
