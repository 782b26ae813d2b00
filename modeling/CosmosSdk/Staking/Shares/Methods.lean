import CosmosSdk.Staking.Shares.Ledger

/-!
# What the keeper methods do to the ledger

For each keeper method, the ledger after a run in terms of the ledger before it.  Most methods leave
the ledger alone (`Guarantees SameLedger`): the pool, the indexes, the queues, the hooks and the bank.
The validator-level methods write one validator record, and their lemma says which one
(`addValidatorTokensAndShares_ledger`, `bondValidator_ledger`, …).  `KeepsShares x` says that every
run of `x` from an accounted ledger ends in one.
-/

namespace CosmosSdk.Staking

open StateExcept

variable {A : Type} [LinearOrder A]

namespace Keeper

/-! ### Runs that keep the ledger -/

section Keeps

variable {ε α : Type}

/-- The two states have the same ledger. -/
def SameLedger (s s' : State A ε) : Prop := s'.store.ledger = s.store.ledger

instance : Std.Refl (SameLedger (A := A) (ε := ε)) := ⟨fun _ => rfl⟩

instance : IsTrans (State A ε) SameLedger := ⟨fun _ _ _ h₁ h₂ => h₂.trans h₁⟩

omit [LinearOrder A] in
theorem SameLedger.validators {s s' : State A ε} (h : SameLedger s s') :
    s'.store.validators = s.store.validators :=
  congrArg Ledger.validators h

omit [LinearOrder A] in
theorem SameLedger.delegations {s s' : State A ε} (h : SameLedger s s') :
    s'.store.delegations = s.store.delegations :=
  congrArg Ledger.delegations h

omit [LinearOrder A] in
theorem SameLedger.redelegations {s s' : State A ε} (h : SameLedger s s') :
    s'.store.redelegations = s.store.redelegations :=
  congrArg Ledger.redelegations h

theorem SameLedger.sharesInv {s s' : State A ε} (h : SameLedger s s') (hinv : s.store.ledger.SharesInv) :
    s'.store.ledger.SharesInv := by
  rw [h]
  exact hinv

omit [LinearOrder A] in
theorem keepsLedger_onRest (f : Store A → StateT ε (Except Panic) α) :
    Guarantees SameLedger (onRest f) := by
  intro s a s' h
  obtain ⟨rest, -, rfl⟩ := onRest_eq_ok.1 h
  rfl

omit [LinearOrder A] in
theorem keepsLedger_modifyStore {f : Store A → Store A} (hf : ∀ st, (f st).ledger = st.ledger) :
    Guarantees SameLedger (modifyStore (ε := ε) f) := by
  intro s u s' h
  rw [modifyStore_eq_ok.1 h]
  exact hf s.store

omit [LinearOrder A] in
theorem keepsLedger_getStore : Guarantees SameLedger (getStore (A := A) (ε := ε)) := by
  intro s st s' h
  rw [(getStore_eq_ok.1 h).2]
  exact rfl

omit [LinearOrder A] in
theorem keepsLedger_getParams : Guarantees SameLedger (getParams (A := A) (ε := ε)) :=
  keepsLedger_getStore.bind fun _ => Guarantees.pure _

omit [LinearOrder A] in
theorem keepsLedger_getPool : Guarantees SameLedger (getPool (A := A) (ε := ε)) :=
  keepsLedger_getStore.bind fun _ => Guarantees.pure _

omit [LinearOrder A] in
theorem keepsLedger_setPool (pool : Pool) : Guarantees SameLedger (setPool (A := A) (ε := ε) pool) :=
  keepsLedger_modifyStore fun _ => rfl

theorem keepsLedger_deleteValidatorByPowerIndex (v : Validator A) :
    Guarantees SameLedger (deleteValidatorByPowerIndex (ε := ε) v) :=
  (Guarantees.lift _).bind fun _ => keepsLedger_modifyStore fun _ => rfl

theorem keepsLedger_setValidatorByPowerIndex (v : Validator A) :
    Guarantees SameLedger (setValidatorByPowerIndex (ε := ε) v) := by
  unfold setValidatorByPowerIndex
  exact Guarantees.ite (fun _ => Guarantees.pure _)
    (fun _ => (Guarantees.lift _).bind fun _ => keepsLedger_modifyStore fun _ => rfl)

omit [LinearOrder A] in
theorem keepsLedger_getValidatorQueueTimeSlice (timestamp : Int) :
    Guarantees SameLedger (getValidatorQueueTimeSlice (A := A) (ε := ε) timestamp) :=
  keepsLedger_getStore.bind fun _ => Guarantees.pure _

omit [LinearOrder A] in
theorem keepsLedger_insertValidatorQueue (v : Validator A) :
    Guarantees SameLedger (insertValidatorQueue (ε := ε) v) :=
  (keepsLedger_getValidatorQueueTimeSlice _).bind fun _ => keepsLedger_modifyStore fun _ => rfl

theorem keepsLedger_deleteValidatorQueue (v : Validator A) :
    Guarantees SameLedger (deleteValidatorQueue (ε := ε) v) :=
  (keepsLedger_getValidatorQueueTimeSlice _).bind fun _ =>
    Guarantees.ite (fun _ => keepsLedger_modifyStore fun _ => rfl)
      (fun _ => keepsLedger_modifyStore fun _ => rfl)

theorem keepsLedger_setLastValidatorPower (operator : A) (power : Int) :
    Guarantees SameLedger (setLastValidatorPower (ε := ε) operator power) :=
  keepsLedger_modifyStore fun _ => rfl

theorem keepsLedger_deleteLastValidatorPower (operator : A) :
    Guarantees SameLedger (deleteLastValidatorPower (ε := ε) operator) :=
  keepsLedger_modifyStore fun _ => rfl

omit [LinearOrder A] in
theorem keepsLedger_setLastTotalPower (power : Int) :
    Guarantees SameLedger (setLastTotalPower (A := A) (ε := ε) power) :=
  keepsLedger_modifyStore fun _ => rfl

theorem keepsLedger_getUnbondingDelegation (delAddr valAddr : A) :
    Guarantees SameLedger (getUnbondingDelegation (ε := ε) delAddr valAddr) :=
  keepsLedger_getStore.bind fun _ => Guarantees.pure _

theorem keepsLedger_getUnbondingDelegationsFromValidator (valAddr : A) :
    Guarantees SameLedger (getUnbondingDelegationsFromValidator (ε := ε) valAddr) :=
  keepsLedger_getStore.bind fun _ => Guarantees.pure _

theorem keepsLedger_setUnbondingDelegation (ubd : UnbondingDelegation A) :
    Guarantees SameLedger (setUnbondingDelegation (ε := ε) ubd) := by
  dsimp only [setUnbondingDelegation]
  exact keepsLedger_modifyStore fun _ => rfl

theorem keepsLedger_removeUnbondingDelegation (ubd : UnbondingDelegation A) :
    Guarantees SameLedger (removeUnbondingDelegation (ε := ε) ubd) := by
  dsimp only [removeUnbondingDelegation]
  exact keepsLedger_modifyStore fun _ => rfl

omit [LinearOrder A] in
theorem keepsLedger_dequeueAllMatureUBDQueue (ctx : Ctx) :
    Guarantees SameLedger (dequeueAllMatureUBDQueue (A := A) (ε := ε) ctx) :=
  keepsLedger_getStore.bind fun _ =>
    Guarantees.bind (keepsLedger_modifyStore (by intro; rfl)) fun _ => Guarantees.pure _

omit [LinearOrder A] in
theorem keepsLedger_dequeueAllMatureRedelegationQueue (ctx : Ctx) :
    Guarantees SameLedger (dequeueAllMatureRedelegationQueue (A := A) (ε := ε) ctx) :=
  keepsLedger_getStore.bind fun _ =>
    Guarantees.bind (keepsLedger_modifyStore (by intro; rfl)) fun _ => Guarantees.pure _

theorem keepsLedger_getValidator (addr : A) : Guarantees SameLedger (getValidator (ε := ε) addr) :=
  keepsLedger_getStore.bind fun _ => Guarantees.pure _

theorem keepsLedger_getValidatorByConsAddr (consAddr : A) :
    Guarantees SameLedger (getValidatorByConsAddr (ε := ε) consAddr) := by
  unfold getValidatorByConsAddr
  refine keepsLedger_getStore.bind fun st => ?_
  split
  · exact keepsLedger_getValidator _
  · exact Guarantees.pure _

theorem keepsLedger_setValidatorByConsAddr (v : Validator A) :
    Guarantees SameLedger (setValidatorByConsAddr (ε := ε) v) :=
  keepsLedger_modifyStore fun _ => rfl

theorem keepsLedger_setNewValidatorByPowerIndex (v : Validator A) :
    Guarantees SameLedger (setNewValidatorByPowerIndex (ε := ε) v) :=
  (Guarantees.lift _).bind fun _ => keepsLedger_modifyStore fun _ => rfl

theorem keepsLedger_hasMaxUnbondingDelegationEntries (delAddr valAddr : A) :
    Guarantees SameLedger (hasMaxUnbondingDelegationEntries (ε := ε) delAddr valAddr) := by
  unfold hasMaxUnbondingDelegationEntries
  refine (keepsLedger_getUnbondingDelegation _ _).bind fun found => ?_
  cases found with
  | none => exact Guarantees.pure _
  | some _ => exact keepsLedger_getParams.bind fun _ => Guarantees.pure _

theorem keepsLedger_setUnbondingDelegationEntry (delAddr valAddr : A) (creationHeight minTime balance : Int) :
    Guarantees SameLedger
      (setUnbondingDelegationEntry (ε := ε) delAddr valAddr creationHeight minTime balance) :=
  (keepsLedger_getUnbondingDelegation _ _).bind fun _ =>
    (keepsLedger_setUnbondingDelegation _).bind fun _ => Guarantees.pure _

omit [LinearOrder A] in
theorem keepsLedger_insertUBDQueue (ubd : UnbondingDelegation A) (completionTime : Int) :
    Guarantees SameLedger (insertUBDQueue (ε := ε) ubd completionTime) :=
  (keepsLedger_getStore.bind fun _ => Guarantees.pure _).bind fun _ =>
    keepsLedger_modifyStore (by intro; rfl)

theorem keepsLedger_getRedelegation (delAddr valSrcAddr valDstAddr : A) :
    Guarantees SameLedger (getRedelegation (ε := ε) delAddr valSrcAddr valDstAddr) :=
  keepsLedger_getStore.bind fun _ => Guarantees.pure _

theorem keepsLedger_hasReceivingRedelegation (delAddr valDstAddr : A) :
    Guarantees SameLedger (hasReceivingRedelegation (ε := ε) delAddr valDstAddr) :=
  keepsLedger_getStore.bind fun _ => Guarantees.pure _

theorem keepsLedger_hasMaxRedelegationEntries (delAddr valSrcAddr valDstAddr : A) :
    Guarantees SameLedger (hasMaxRedelegationEntries (ε := ε) delAddr valSrcAddr valDstAddr) := by
  unfold hasMaxRedelegationEntries
  refine (keepsLedger_getRedelegation _ _ _).bind fun found => ?_
  cases found with
  | none => exact Guarantees.pure _
  | some _ => exact keepsLedger_getParams.bind fun _ => Guarantees.pure _

omit [LinearOrder A] in
theorem keepsLedger_insertRedelegationQueue (red : Redelegation A) (completionTime : Int) :
    Guarantees SameLedger (insertRedelegationQueue (ε := ε) red completionTime) :=
  (keepsLedger_getStore.bind fun _ => Guarantees.pure _).bind fun _ =>
    keepsLedger_modifyStore (by intro; rfl)

end Keeps

/-! ### Runs that keep the accounting -/

section KeepsShares

variable {ε α : Type}

/-- Every run of `x` from an accounted ledger ends in an accounted ledger. -/
def KeepsShares (x : KeeperM A ε α) : Prop :=
  Triple (fun s => s.store.ledger.SharesInv) x fun _ s => s.store.ledger.SharesInv

theorem KeepsShares.of_keepsLedger {x : KeeperM A ε α} (hx : Guarantees SameLedger x) :
    KeepsShares x := by
  intro s a s' hinv h
  rw [hx s a s' h]
  exact hinv

/-- A validator written back over its stored record with its shares, and no more tokens, keeps the
accounting. -/
theorem sharesInv_of_burn {s s' : State A ε} {v v' : Validator A} (hinv : s.store.ledger.SharesInv)
    (hv : s.store.validators.lookup v.operatorAddress = some v)
    (e : s'.store.ledger =
      { s.store.ledger with validators := s.store.validators.insert v.operatorAddress v' })
    (hop : v'.operatorAddress = v.operatorAddress) (hshares : v'.delegatorShares = v.delegatorShares)
    (hnonneg : 0 ≤ v'.tokens) (hle : v'.tokens ≤ v.tokens) : s'.store.ledger.SharesInv := by
  rw [e, ← hop]
  exact hinv.setValidator (hop ▸ hv) hshares hnonneg hle

/-- A validator written back over its stored record with its shares and tokens keeps the
accounting. -/
theorem sharesInv_of_restake {s s' : State A ε} {v v' : Validator A} (hinv : s.store.ledger.SharesInv)
    (hv : s.store.validators.lookup v.operatorAddress = some v)
    (e : s'.store.ledger =
      { s.store.ledger with validators := s.store.validators.insert v.operatorAddress v' })
    (hop : v'.operatorAddress = v.operatorAddress) (hshares : v'.delegatorShares = v.delegatorShares)
    (htokens : v'.tokens = v.tokens) : s'.store.ledger.SharesInv :=
  sharesInv_of_burn hinv hv e hop hshares (htokens ▸ hinv.tokens_nonneg hv) htokens.le

theorem KeepsShares.bind {β : Type} {x : KeeperM A ε α} {f : α → KeeperM A ε β} (hx : KeepsShares x)
    (hf : ∀ a, KeepsShares (f a)) : KeepsShares (x >>= f) :=
  Triple.bind hx hf

/-- `SetRedelegationEntry` between two validators, of nonnegative destination shares, keeps the
accounting. -/
theorem setRedelegationEntry_sharesInv {s s' : State A ε} {delAddr valSrcAddr valDstAddr : A}
    {creationHeight minTime balance : Int} {sharesDst : Dec} {red : Redelegation A}
    (hinv : s.store.ledger.SharesInv) (hne : valSrcAddr ≠ valDstAddr) (hdst : 0 ≤ sharesDst.raw)
    (h : setRedelegationEntry delAddr valSrcAddr valDstAddr creationHeight minTime balance sharesDst s =
      .ok (red, s')) : s'.store.ledger.SharesInv := by
  unfold setRedelegationEntry at h
  rw [bind_eq_ok] at h
  obtain ⟨found, s₁, h₁, h⟩ := h
  obtain ⟨hfound, rfl⟩ := getRedelegation_eq_ok.1 h₁
  rw [bind_eq_ok] at h
  obtain ⟨_, s₂, h₂, h⟩ := h
  obtain ⟨-, rfl⟩ := pure_eq_ok.1 h
  rw [setRedelegation_eq_ok] at h₂
  subst h₂
  cases found with
  | none =>
    refine hinv.setRedelegation hne fun e he => ?_
    rw [List.mem_singleton] at he
    subst he
    exact hdst
  | some red₀ =>
    obtain ⟨entries, hentries, rfl⟩ := Option.map_eq_some_iff.1 hfound
    refine hinv.setRedelegation hne fun e he => ?_
    rcases List.mem_append.1 he with he | he
    · exact hinv.sharesDst_nonneg hentries e he
    · rw [List.mem_singleton] at he
      subst he
      exact hdst

end KeepsShares

/-! ### Tokens and shares -/

section Shares

variable {ε : Type} {s s' : State A ε}

theorem addValidatorTokensAndShares_ledger {v v' : Validator A} {amount : Int} {issued : Dec}
    (h : addValidatorTokensAndShares v amount s = .ok ((v', issued), s')) :
    (∃ pool pool', v.addTokensFromDel pool amount = .ok (v', pool', issued)) ∧
      s'.store.ledger =
        { s.store.ledger with validators := s.store.validators.insert v.operatorAddress v' } := by
  unfold addValidatorTokensAndShares at h
  rw [bind_eq_ok] at h
  obtain ⟨_, s₁, h₁, h⟩ := h
  have e₁ := keepsLedger_deleteValidatorByPowerIndex v s _ s₁ h₁
  rw [bind_eq_ok] at h
  obtain ⟨pool, s₂, h₂, h⟩ := h
  obtain ⟨rfl, rfl⟩ := getPool_eq_ok.1 h₂
  rw [bind_eq_ok] at h
  obtain ⟨⟨v₁, pool₁, issued₁⟩, s₃, h₃, h⟩ := h
  obtain ⟨hadd, rfl⟩ := lift_eq_ok.1 h₃
  rw [bind_eq_ok] at h
  obtain ⟨_, s₄, h₄, h⟩ := h
  rw [setValidator_eq_ok] at h₄
  subst h₄
  rw [bind_eq_ok] at h
  obtain ⟨_, s₅, h₅, h⟩ := h
  rw [setPool_eq_ok] at h₅
  subst h₅
  rw [bind_eq_ok] at h
  obtain ⟨_, s₆, h₆, h⟩ := h
  have e₆ := keepsLedger_setValidatorByPowerIndex v₁ _ _ s₆ h₆
  obtain ⟨h', rfl⟩ := pure_eq_ok.1 h
  obtain ⟨rfl, rfl⟩ := Prod.mk.inj h'
  have hop : v₁.operatorAddress = v.operatorAddress := by
    rw [(Validator.addTokensFromDel_eq_ok hadd).1]
  refine ⟨⟨_, _, hadd⟩, ?_⟩
  rw [e₆, ← hop]
  have hvals : s₁.store.validators = s.store.validators := congrArg Ledger.validators e₁
  show ({ s₁.store.ledger with validators := s₁.store.validators.insert v₁.operatorAddress v₁ } : Ledger A) = _
  rw [e₁, hvals]

theorem removeValidatorTokensAndShares_ledger {v v' : Validator A} {shares : Dec} {amount : Int}
    (h : removeValidatorTokensAndShares v shares s = .ok ((v', amount), s')) :
    (∃ pool pool', v.removeDelShares pool shares = .ok (v', pool', amount)) ∧
      s'.store.ledger =
        { s.store.ledger with validators := s.store.validators.insert v.operatorAddress v' } := by
  unfold removeValidatorTokensAndShares at h
  rw [bind_eq_ok] at h
  obtain ⟨_, s₁, h₁, h⟩ := h
  have e₁ := keepsLedger_deleteValidatorByPowerIndex v s _ s₁ h₁
  rw [bind_eq_ok] at h
  obtain ⟨pool, s₂, h₂, h⟩ := h
  obtain ⟨rfl, rfl⟩ := getPool_eq_ok.1 h₂
  rw [bind_eq_ok] at h
  obtain ⟨⟨v₁, pool₁, amount₁⟩, s₃, h₃, h⟩ := h
  obtain ⟨hremove, rfl⟩ := lift_eq_ok.1 h₃
  rw [bind_eq_ok] at h
  obtain ⟨_, s₄, h₄, h⟩ := h
  rw [setValidator_eq_ok] at h₄
  subst h₄
  rw [bind_eq_ok] at h
  obtain ⟨_, s₅, h₅, h⟩ := h
  rw [setPool_eq_ok] at h₅
  subst h₅
  rw [bind_eq_ok] at h
  obtain ⟨_, s₆, h₆, h⟩ := h
  have e₆ := keepsLedger_setValidatorByPowerIndex v₁ _ _ s₆ h₆
  obtain ⟨h', rfl⟩ := pure_eq_ok.1 h
  obtain ⟨rfl, rfl⟩ := Prod.mk.inj h'
  obtain ⟨tokens, rfl, -⟩ := Validator.removeDelShares_eq_ok hremove
  refine ⟨⟨_, _, hremove⟩, ?_⟩
  have hvals : s₁.store.validators = s.store.validators := congrArg Ledger.validators e₁
  rw [e₆]
  show ({ s₁.store.ledger with validators := s₁.store.validators.insert v.operatorAddress _ } : Ledger A) = _
  rw [e₁, hvals]

theorem removeValidatorTokens_ledger {v v' : Validator A} {tokens : Int}
    (h : removeValidatorTokens v tokens s = .ok (v', s')) :
    (∃ pool pool', v.removeTokens pool tokens = .ok (v', pool')) ∧
      s'.store.ledger =
        { s.store.ledger with validators := s.store.validators.insert v.operatorAddress v' } := by
  unfold removeValidatorTokens at h
  obtain ⟨_, s₁, e₁, h⟩ := (keepsLedger_deleteValidatorByPowerIndex v).run_bind h
  rw [bind_eq_ok] at h
  obtain ⟨pool, s₂, h₂, h⟩ := h
  obtain ⟨rfl, rfl⟩ := getPool_eq_ok.1 h₂
  rw [bind_eq_ok] at h
  obtain ⟨⟨v₁, pool₁⟩, s₃, h₃, h⟩ := h
  obtain ⟨hremove, rfl⟩ := lift_eq_ok.1 h₃
  rw [bind_eq_ok] at h
  obtain ⟨_, s₄, h₄, h⟩ := h
  rw [setValidator_eq_ok] at h₄
  subst h₄
  obtain ⟨_, s₅, e₅, h⟩ := (keepsLedger_setPool pool₁).run_bind h
  obtain ⟨_, s₆, e₆, h⟩ := (keepsLedger_setValidatorByPowerIndex v₁).run_bind h
  obtain ⟨rfl, rfl⟩ := pure_eq_ok.1 h
  obtain ⟨rfl, -⟩ := Validator.removeTokens_eq_ok hremove
  refine ⟨⟨_, _, hremove⟩, ?_⟩
  rw [e₆, e₅]
  show ({ s₁.store.ledger with validators := s₁.store.validators.insert v.operatorAddress _ } : Ledger A) = _
  rw [e₁, e₁.validators]

theorem jailValidator_ledger {v : Validator A} {u : Unit} (h : jailValidator v s = .ok (u, s')) :
    v.jailed = false ∧ s'.store.ledger =
      { s.store.ledger with
        validators := s.store.validators.insert v.operatorAddress { v with jailed := true } } := by
  unfold jailValidator at h
  dsimp only at h
  split at h
  · rw [bind_eq_ok] at h
    obtain ⟨_, _, h, -⟩ := h
    exact absurd h throw_ne_ok
  rename_i hjailed
  rw [bind_eq_ok] at h
  obtain ⟨_, s₁, h₁, h⟩ := h
  rw [setValidator_eq_ok] at h₁
  subst h₁
  exact ⟨by simpa using hjailed, keepsLedger_deleteValidatorByPowerIndex _ _ _ _ h⟩

variable (k : Keeper A ε)

theorem removeDelegation_ledger {ctx : Ctx} {d : Delegation A} {u : Unit}
    (h : k.removeDelegation ctx d s = .ok (u, s')) :
    s'.store.ledger = { s.store.ledger with
      delegations := s.store.delegations.erase (d.delegatorAddress, d.validatorAddress) } := by
  unfold removeDelegation at h
  rw [bind_eq_ok] at h
  obtain ⟨_, s₁, h₁, h⟩ := h
  have e₁ := keepsLedger_onRest _ _ _ _ h₁
  rw [modifyStore_eq_ok.1 h]
  show ({ s₁.store.ledger with delegations := s₁.store.delegations.erase _ } : Ledger A) = _
  rw [e₁, e₁.delegations]

/-- `RemoveValidator` erases the record, if there is one. -/
theorem removeValidator_ledger {ctx : Ctx} {address : A} {u : Unit}
    (h : k.removeValidator ctx address s = .ok (u, s')) :
    s'.store.ledger = { s.store.ledger with validators := s.store.validators.erase address } := by
  unfold removeValidator at h
  rw [bind_eq_ok] at h
  obtain ⟨found, s₁, h₁, h⟩ := h
  obtain ⟨hfound, rfl⟩ := getValidator_eq_ok.1 h₁
  cases found with
  | none =>
    obtain ⟨-, rfl⟩ := pure_eq_ok.1 h
    have hnone : s.store.validators.erase address = s.store.validators := by
      refine Finmap.ext_lookup fun b => ?_
      by_cases hb : b = address
      · rw [hb, Finmap.lookup_erase, hfound]
      · exact Finmap.lookup_erase_ne hb
    rw [hnone]
    rfl
  | some v =>
    dsimp only at h
    split at h
    · rw [bind_eq_ok] at h
      obtain ⟨_, _, h, -⟩ := h
      exact absurd h throw_ne_ok
    split at h
    · rw [bind_eq_ok] at h
      obtain ⟨_, _, h, -⟩ := h
      exact absurd h throw_ne_ok
    rw [bind_eq_ok] at h
    obtain ⟨key, s₂, h₂, h⟩ := h
    obtain ⟨-, rfl⟩ := lift_eq_ok.1 h₂
    rw [bind_eq_ok] at h
    obtain ⟨_, s₃, h₃, h⟩ := h
    rw [modifyStore_eq_ok] at h₃
    subst h₃
    exact keepsLedger_onRest _ _ _ _ h

theorem unjailValidator_ledger {v : Validator A} {u : Unit} (h : unjailValidator v s = .ok (u, s')) :
    v.jailed = true ∧ s'.store.ledger =
      { s.store.ledger with
        validators := s.store.validators.insert v.operatorAddress { v with jailed := false } } := by
  unfold unjailValidator at h
  dsimp only at h
  split at h
  · rw [bind_eq_ok] at h
    obtain ⟨_, _, h, -⟩ := h
    exact absurd h throw_ne_ok
  rename_i hjailed
  rw [bind_eq_ok] at h
  obtain ⟨_, s₁, h₁, h⟩ := h
  rw [setValidator_eq_ok] at h₁
  subst h₁
  exact ⟨by simpa using hjailed, keepsLedger_setValidatorByPowerIndex _ _ _ _ h⟩

/-! ### Status changes -/

theorem completeUnbondingValidator_ledger {v v' : Validator A}
    (h : completeUnbondingValidator v s = .ok (v', s')) :
    v' = { v with status := .unbonded } ∧ s'.store.ledger =
      { s.store.ledger with validators := s.store.validators.insert v.operatorAddress v' } := by
  unfold completeUnbondingValidator at h
  rw [bind_eq_ok] at h
  obtain ⟨pool, s₁, h₁, h⟩ := h
  obtain ⟨rfl, rfl⟩ := getPool_eq_ok.1 h₁
  rw [bind_eq_ok] at h
  obtain ⟨⟨v₁, pool₁⟩, s₂, h₂, h⟩ := h
  obtain ⟨hupdate, rfl⟩ := lift_eq_ok.1 h₂
  rw [bind_eq_ok] at h
  obtain ⟨_, s₃, h₃, h⟩ := h
  rw [setPool_eq_ok] at h₃
  subst h₃
  rw [bind_eq_ok] at h
  obtain ⟨_, s₄, h₄, h⟩ := h
  rw [setValidator_eq_ok] at h₄
  subst h₄
  obtain ⟨rfl, rfl⟩ := pure_eq_ok.1 h
  obtain rfl := Validator.updateStatus_eq_ok hupdate
  exact ⟨rfl, rfl⟩

theorem unbondingToUnbonded_ledger {v v' : Validator A}
    (h : unbondingToUnbonded v s = .ok (v', s')) :
    v' = { v with status := .unbonded } ∧ s'.store.ledger =
      { s.store.ledger with validators := s.store.validators.insert v.operatorAddress v' } := by
  unfold unbondingToUnbonded at h
  dsimp only at h
  split at h
  · rw [bind_eq_ok] at h
    obtain ⟨_, _, h, -⟩ := h
    exact absurd h throw_ne_ok
  exact completeUnbondingValidator_ledger h

theorem bondValidator_ledger {ctx : Ctx} {v v' : Validator A} (h : k.bondValidator ctx v s = .ok (v', s')) :
    v' = { v with status := .bonded } ∧ s'.store.ledger =
      { s.store.ledger with validators := s.store.validators.insert v.operatorAddress v' } := by
  unfold bondValidator at h
  obtain ⟨_, s₁, e₁, h⟩ := (keepsLedger_deleteValidatorByPowerIndex v).run_bind h
  rw [bind_eq_ok] at h
  obtain ⟨pool, s₂, h₂, h⟩ := h
  obtain ⟨rfl, rfl⟩ := getPool_eq_ok.1 h₂
  rw [bind_eq_ok] at h
  obtain ⟨⟨v₁, pool₁⟩, s₃, h₃, h⟩ := h
  obtain ⟨hupdate, rfl⟩ := lift_eq_ok.1 h₃
  obtain ⟨_, s₄, e₄, h⟩ := (keepsLedger_setPool pool₁).run_bind h
  rw [bind_eq_ok] at h
  obtain ⟨_, s₅, h₅, h⟩ := h
  rw [setValidator_eq_ok] at h₅
  subst h₅
  obtain ⟨_, s₆, e₆, h⟩ := (keepsLedger_setValidatorByPowerIndex v₁).run_bind h
  obtain ⟨_, s₇, e₇, h⟩ := (keepsLedger_deleteValidatorQueue v₁).run_bind h
  obtain ⟨_, s₈, e₈, h⟩ := (keepsLedger_onRest _).run_bind h
  obtain ⟨rfl, rfl⟩ := pure_eq_ok.1 h
  obtain rfl := Validator.updateStatus_eq_ok hupdate
  refine ⟨rfl, ?_⟩
  rw [e₈, e₇, e₆]
  show ({ s₄.store.ledger with validators := s₄.store.validators.insert v.operatorAddress _ } : Ledger A) = _
  rw [e₄, e₄.validators, e₁, e₁.validators]

theorem beginUnbondingValidator_ledger {ctx : Ctx} {v v' : Validator A}
    (h : k.beginUnbondingValidator ctx v s = .ok (v', s')) :
    v.status = .bonded ∧
      v' = { v with status := .unbonding, unbondingHeight := ctx.height,
                    unbondingCompletionTime := ctx.time + s.store.params.unbondingTime } ∧
      s'.store.ledger =
        { s.store.ledger with validators := s.store.validators.insert v.operatorAddress v' } := by
  unfold beginUnbondingValidator at h
  rw [bind_eq_ok] at h
  obtain ⟨params, s₁, h₁, h⟩ := h
  obtain ⟨rfl, rfl⟩ := getParams_eq_ok.1 h₁
  obtain ⟨_, s₂, e₂, h⟩ := (keepsLedger_deleteValidatorByPowerIndex v).run_bind h
  dsimp only at h
  split at h
  · rw [bind_eq_ok] at h
    obtain ⟨_, _, h, -⟩ := h
    exact absurd h throw_ne_ok
  rename_i hbonded
  rw [bind_eq_ok] at h
  obtain ⟨pool, s₃, h₃, h⟩ := h
  obtain ⟨rfl, rfl⟩ := getPool_eq_ok.1 h₃
  rw [bind_eq_ok] at h
  obtain ⟨⟨v₁, pool₁⟩, s₄, h₄, h⟩ := h
  obtain ⟨hupdate, rfl⟩ := lift_eq_ok.1 h₄
  obtain ⟨_, s₅, e₅, h⟩ := (keepsLedger_setPool pool₁).run_bind h
  rw [bind_eq_ok] at h
  obtain ⟨_, s₆, h₆, h⟩ := h
  rw [setValidator_eq_ok] at h₆
  subst h₆
  obtain ⟨_, s₇, e₇, h⟩ := (keepsLedger_setValidatorByPowerIndex _).run_bind h
  obtain ⟨_, s₈, e₈, h⟩ := (keepsLedger_insertValidatorQueue _).run_bind h
  obtain ⟨_, s₉, e₉, h⟩ := (keepsLedger_onRest _).run_bind h
  obtain ⟨rfl, rfl⟩ := pure_eq_ok.1 h
  obtain rfl := Validator.updateStatus_eq_ok hupdate
  refine ⟨not_not.1 hbonded, rfl, ?_⟩
  rw [e₉, e₈, e₇]
  show ({ s₅.store.ledger with validators := s₅.store.validators.insert v.operatorAddress _ } : Ledger A) = _
  rw [e₅, e₅.validators, e₂, e₂.validators]

theorem unbondedToBonded_ledger {ctx : Ctx} {v v' : Validator A}
    (h : k.unbondedToBonded ctx v s = .ok (v', s')) :
    v' = { v with status := .bonded } ∧ s'.store.ledger =
      { s.store.ledger with validators := s.store.validators.insert v.operatorAddress v' } := by
  unfold unbondedToBonded at h
  dsimp only at h
  split at h
  · exact absurd h throw_bind_ne_ok
  exact bondValidator_ledger k h

theorem unbondingToBonded_ledger {ctx : Ctx} {v v' : Validator A}
    (h : k.unbondingToBonded ctx v s = .ok (v', s')) :
    v' = { v with status := .bonded } ∧ s'.store.ledger =
      { s.store.ledger with validators := s.store.validators.insert v.operatorAddress v' } := by
  unfold unbondingToBonded at h
  dsimp only at h
  split at h
  · exact absurd h throw_bind_ne_ok
  exact bondValidator_ledger k h

theorem bondedToUnbonding_ledger {ctx : Ctx} {v v' : Validator A}
    (h : k.bondedToUnbonding ctx v s = .ok (v', s')) :
    v' = { v with status := .unbonding, unbondingHeight := ctx.height,
                  unbondingCompletionTime := ctx.time + s.store.params.unbondingTime } ∧
      s'.store.ledger =
        { s.store.ledger with validators := s.store.validators.insert v.operatorAddress v' } := by
  unfold bondedToUnbonding at h
  dsimp only at h
  split at h
  · exact absurd h throw_bind_ne_ok
  exact (beginUnbondingValidator_ledger k h).2

/-- Writing a stored validator back with its shares and tokens keeps the accounting. -/
theorem setValidator_keepsShares {v₀ v : Validator A} {u : Unit} (hinv : s.store.ledger.SharesInv)
    (hv : s.store.validators.lookup v.operatorAddress = some v₀)
    (hshares : v.delegatorShares = v₀.delegatorShares) (htokens : v.tokens = v₀.tokens)
    (h : setValidator v s = .ok (u, s')) : s'.store.ledger.SharesInv := by
  rw [setValidator_eq_ok.1 h]
  exact hinv.setValidator_same hv hshares htokens

end Shares

end Keeper

end CosmosSdk.Staking
