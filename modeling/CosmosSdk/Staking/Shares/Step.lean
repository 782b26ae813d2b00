import CosmosSdk.Staking.Shares.Slash
import CosmosSdk.Staking.Shares.EndBlock

/-!
# The share accounting over every run

Every step of the application keeps `SharesInv`: each staking message that passes `ValidateBasic`,
`Slash`, `Jail` and `Unjail`, the minting of tokens, the end of a block, and the other modules'
changes to the rest of the state.  By induction on the steps, the accounting holds in every state
reachable from an accounted state (`Reachable.sharesInv`), and with it what the accounting promises
of each state and each step out of it (`sharesAccounted_of_reachable`).

`ValidateBasic` matters: it gives the positive self-delegation of `MsgCreateValidator` and of
`MsgDelegate`, which issue positive shares, and the positive shares of `MsgUndelegate` and
`MsgBeginRedelegate`.
-/

namespace CosmosSdk.Staking

open StateExcept

variable {A : Type} [LinearOrder A]

namespace Keeper

variable {ε : Type} (k : Keeper A ε) {s s' : State A ε}

/-! ### Messages -/

/-- `handleMsgCreateValidator` stores a validator without tokens or shares at a free operator
address, then delegates a positive amount to it. -/
theorem createValidator_keepsShares {ctx : Ctx} {description : Description} {commission : CommissionMsg}
    {minSelfDelegation : Int} {delegatorAddress validatorAddress pubKey : A} {value : Coin}
    (hamount : 0 < value.amount) :
    KeepsShares (k.handleMsgCreateValidator ctx description commission minSelfDelegation
      delegatorAddress validatorAddress pubKey value) := by
  intro s r s' hinv h
  rcases k.handleMsgCreateValidator_eq_ok h with ⟨e, -⟩ | ⟨v, hv, s₁, result, hnone, e₁, hdel, -⟩
  · exact e.sharesInv hinv
  -- the new validator, stored with no tokens and no shares, receives the self-delegation
  have hop : v.operatorAddress = validatorAddress := by
    rw [hv]
    rfl
  have hinv₁ : s₁.store.ledger.SharesInv := by
    rw [e₁, ← hop]
    exact hinv.setValidator_new (by rw [hop]; exact hnone) (by rw [hv]; rfl) (by rw [hv]; rfl)
  have hlookup : s₁.store.validators.lookup v.operatorAddress = some v := by
    rw [Store.validators_eq_of_ledger e₁, hop]
    exact Finmap.lookup_insert _
  exact (delegate_sharesInv k hinv₁ hlookup hamount hdel).1

/-- What a successful run of `handleMsgEditValidator` does: the hook `BeforeValidatorModified` when
the commission changes, and then, unless a check fails, one write of the stored validator with its
operator, shares and tokens. -/
theorem handleMsgEditValidator_eq_ok {ctx : Ctx} {description : Description} {validatorAddress : A}
    {commissionRate : Option Dec} {minSelfDelegation : Option Int} {r : Except Error Unit}
    (h : k.handleMsgEditValidator ctx description validatorAddress commissionRate minSelfDelegation s =
      .ok (r, s')) :
    ∃ s₁, (s₁ = s ∨
        onRest (fun st => k.hooks.beforeValidatorModified ctx st validatorAddress) s = .ok ((), s₁)) ∧
      (s' = s₁ ∨ ∃ validator v, s.store.validators.lookup validatorAddress = some validator ∧
        v.operatorAddress = validator.operatorAddress ∧ v.delegatorShares = validator.delegatorShares ∧
        v.tokens = validator.tokens ∧ setValidator v s₁ = .ok ((), s')) := by
  unfold handleMsgEditValidator at h
  rw [bind_eq_ok] at h
  obtain ⟨found, s₀, h₀, h⟩ := h
  obtain ⟨hfound, rfl⟩ := getValidator_eq_ok.1 h₀
  cases found with
  | none => exact ⟨s, .inl rfl, .inl (pure_eq_ok.1 h).2.symm⟩
  | some validator =>
  -- every path that returns without an error ends with the write of a validator
  have hwrite : ∀ (v : Validator A) (s₁ : State A ε),
      (setValidator v >>= fun _ => (pure (.ok ()) : KeeperM A ε (Except Error Unit))) s₁ = .ok (r, s') →
      setValidator v s₁ = .ok ((), s') := by
    intro v s₁ h
    obtain ⟨_, s₂, h₂, h⟩ := bind_eq_ok.1 h
    obtain ⟨-, rfl⟩ := pure_eq_ok.1 h
    exact h₂
  have hmin : ∀ (newMin : Int) (v : Validator A) (s₁ : State A ε),
      (if newMin ≤ v.minSelfDelegation then pure (.error errMinSelfDelegationDecreased)
        else if v.tokens < newMin then pure (.error errSelfDelegationBelowMinimum)
        else setValidator { v with minSelfDelegation := newMin } >>= fun _ =>
          (pure (.ok ()) : KeeperM A ε (Except Error Unit))) s₁ = .ok (r, s') →
      s' = s₁ ∨ setValidator { v with minSelfDelegation := newMin } s₁ = .ok ((), s') := by
    intro newMin v s₁ h
    split at h
    · exact .inl (pure_eq_ok.1 h).2.symm
    split at h
    · exact .inl (pure_eq_ok.1 h).2.symm
    exact .inr (hwrite _ s₁ h)
  dsimp only at h
  cases hdesc : validator.description.updateDescription description with
  | error _ =>
    simp only [hdesc] at h
    exact ⟨s, .inl rfl, .inl (pure_eq_ok.1 h).2.symm⟩
  | ok description =>
  simp only [hdesc] at h
  cases commissionRate with
  | none =>
    simp only [pure_bind] at h
    refine ⟨s, .inl rfl, ?_⟩
    cases minSelfDelegation with
    | none => exact .inr ⟨validator, { validator with description := description }, hfound, rfl, rfl, rfl,
        hwrite _ s h⟩
    | some newMin =>
      rcases hmin newMin { validator with description := description } s h with rfl | hset
      · exact .inl rfl
      · -- the write keeps what the description, the commission and the minimum leave alone
        refine .inr ⟨validator, _, hfound, ?_, ?_, ?_, hset⟩ <;> rfl
  | some rate =>
    simp only at h
    cases hcomm : updateValidatorCommission ctx { validator with description := description } rate with
    | error _ =>
      simp only [hcomm] at h
      exact ⟨s, .inl rfl, .inl (pure_eq_ok.1 h).2.symm⟩
    | ok commission =>
    simp only [hcomm] at h
    rw [bind_eq_ok] at h
    obtain ⟨_, s₁, h₁, h⟩ := h
    refine ⟨s₁, .inr h₁, ?_⟩
    simp only [pure_bind] at h
    cases minSelfDelegation with
    | none => exact .inr ⟨validator, { validator with description := description, commission := commission },
        hfound, rfl, rfl, rfl, hwrite _ s₁ h⟩
    | some newMin =>
      rcases hmin newMin { validator with description := description, commission := commission } s₁ h
        with rfl | hset
      · exact .inl rfl
      · refine .inr ⟨validator, _, hfound, ?_, ?_, ?_, hset⟩ <;> rfl

/-- `handleMsgEditValidator` writes the stored record back with its operator, shares and tokens. -/
theorem editValidator_keepsShares (ctx : Ctx) (description : Description) (validatorAddress : A)
    (commissionRate : Option Dec) (minSelfDelegation : Option Int) :
    KeepsShares (k.handleMsgEditValidator ctx description validatorAddress commissionRate
      minSelfDelegation) := by
  intro s r s' hinv h
  obtain ⟨s₁, hrest, hend⟩ := k.handleMsgEditValidator_eq_ok h
  have e₁ : SameLedger s s₁ := by
    rcases hrest with rfl | hrest
    · rfl
    · exact keepsLedger_onRest _ _ _ _ hrest
  rcases hend with rfl | ⟨validator, v, hfound, hop, hshares, htokens, hset⟩
  · exact e₁.sharesInv hinv
  · -- the record is stored under its operator address, which the write keeps
    have hv : s₁.store.validators.lookup v.operatorAddress = some validator := by
      rw [hop, e₁.validators, hinv.operator_eq hfound]
      exact hfound
    exact setValidator_keepsShares (e₁.sharesInv hinv) hv hshares htokens hset

theorem handleMsgDelegate_keepsShares {ctx : Ctx} {delegatorAddress validatorAddress : A}
    {value : Coin} (hamount : 0 < value.amount) :
    KeepsShares (k.handleMsgDelegate ctx delegatorAddress validatorAddress value) := by
  intro s r s' hinv h
  unfold handleMsgDelegate at h
  rw [bind_eq_ok] at h
  obtain ⟨found, s₁, h₁, h⟩ := h
  obtain ⟨hfound, rfl⟩ := getValidator_eq_ok.1 h₁
  cases found with
  | none =>
    obtain ⟨-, rfl⟩ := pure_eq_ok.1 h
    exact hinv
  | some validator =>
  dsimp only at h
  obtain ⟨_, s₂, e₂, h⟩ := keepsLedger_getParams.run_bind h
  split at h
  · obtain ⟨-, rfl⟩ := pure_eq_ok.1 h
    exact e₂.sharesInv hinv
  rw [bind_eq_ok] at h
  obtain ⟨result, s₃, h₃, h⟩ := h
  obtain ⟨-, rfl⟩ := pure_eq_ok.1 h
  have hv : s₂.store.validators.lookup validator.operatorAddress = some validator := by
    rw [e₂.validators, hinv.operator_eq hfound]
    exact hfound
  exact (delegate_sharesInv k (e₂.sharesInv hinv) hv hamount h₃).1

/-- The handler of a message that passes `ValidateBasic` keeps the accounting. -/
theorem handler_keepsShares [OrderBot A] (ctx : Ctx) (msg : Msg A) (hvalid : msg.validateBasic = none) :
    KeepsShares (k.handler ctx msg) := by
  cases msg with
  | createValidator description commission minSelfDelegation delegatorAddress validatorAddress pubKey
      value =>
    exact createValidator_keepsShares k (Msg.validateBasic_createValidator_amount hvalid)
  | editValidator description validatorAddress commissionRate minSelfDelegation =>
    exact editValidator_keepsShares k ctx description validatorAddress commissionRate minSelfDelegation
  | delegate delegatorAddress validatorAddress value =>
    exact handleMsgDelegate_keepsShares k (Msg.validateBasic_delegate_amount hvalid)
  | undelegate delegatorAddress validatorAddress sharesAmount =>
    exact (undelegate_keepsShares k (Msg.validateBasic_undelegate_shares hvalid).le).bind fun _ =>
      KeepsShares.of_keepsLedger (Guarantees.pure _)
  | beginRedelegate delegatorAddress validatorSrcAddress validatorDstAddress sharesAmount =>
    exact (beginRedelegation_keepsShares k (Msg.validateBasic_beginRedelegate_shares hvalid).le).bind
      fun _ => KeepsShares.of_keepsLedger (Guarantees.pure _)

omit [LinearOrder A] in
theorem keepsLedger_inflateSupply (newTokens : Int) :
    Guarantees SameLedger (inflateSupply (A := A) (ε := ε) newTokens) :=
  keepsLedger_getPool.bind fun _ => (Guarantees.lift _).bind fun _ => keepsLedger_setPool _

end Keeper

/-! ### Every run -/

variable {ε : Type} {k : Keeper A ε}

/-- Every step keeps the accounting. -/
theorem Step.sharesInv [OrderBot A] {s s' : State A ε} (hstep : Step k s s') (hinv : s.store.ledger.SharesInv) :
    s'.store.ledger.SharesInv := by
  cases hstep with
  | msg ctx msg hvalid h => exact Keeper.handler_keepsShares k ctx msg hvalid _ _ _ hinv h
  | slash ctx consAddr infractionHeight power slashFactor h =>
    exact Keeper.slash_keepsShares k ctx consAddr infractionHeight power slashFactor _ _ _ hinv h
  | jail consAddr h => exact Keeper.jail_keepsShares consAddr _ _ _ hinv h
  | unjail consAddr h => exact Keeper.unjail_keepsShares consAddr _ _ _ hinv h
  | inflateSupply newTokens _ h =>
    exact Keeper.KeepsShares.of_keepsLedger (Keeper.keepsLedger_inflateSupply newTokens) _ _ _ hinv h
  | endBlock ctx updates h => exact Keeper.endBlocker_keepsShares k ctx _ _ _ hinv h
  | rest e => exact hinv

theorem Reachable.sharesInv [OrderBot A] {s₀ s : State A ε} (h₀ : s₀.store.ledger.SharesInv)
    (hs : Reachable k s₀ s) : s.store.ledger.SharesInv := by
  induction hs with
  | init => exact h₀
  | step _ hstep ih => exact hstep.sharesInv ih

/-! ### The accounting of every reachable state -/

/-- A store with a pool and parameters and no records. -/
def Store.genesis (pool : Pool) (params : Params) : Store A where
  validators := ∅
  validatorsByConsAddr := ∅
  validatorsByPower := ∅
  delegations := ∅
  unbondingDelegations := ∅
  redelegations := ∅
  ubdQueue := ∅
  redelegationQueue := ∅
  validatorQueue := ∅
  lastValidatorPowers := ∅
  lastTotalPower := 0
  pool := pool
  params := params

theorem Store.genesis_sharesInv (pool : Pool) (params : Params) :
    (Store.genesis pool params : Store A).ledger.SharesInv where
  operator_eq h := by simp [Store.genesis, Store.ledger] at h
  shares_eq h := by simp [Store.genesis, Store.ledger] at h
  tokens_nonneg h := by simp [Store.genesis, Store.ledger] at h
  tokens_le_shares h := by simp [Store.genesis, Store.ledger] at h
  delegation_pos h := by simp [Store.genesis, Store.ledger] at h
  delegation_validator h := by simp [Store.genesis, Store.ledger] at h
  redelegation_ne h := by simp [Store.genesis, Store.ledger] at h
  sharesDst_nonneg h := by simp [Store.genesis, Store.ledger] at h

/-- What the share accounting promises of a state and of the steps out of it.  Each stored
validator's `DelegatorShares` are the sum of the shares of the delegations to it.  Each delegation
holds positive shares and refers to a stored validator.  A step that removes a validator leaves no
shares delegated to it. -/
def SharesAccounted [OrderBot A] (k : Keeper A ε) (s : State A ε) : Prop :=
  (∀ a v, s.store.validators.lookup a = some v →
    v.delegatorShares.raw = s.store.ledger.delegatedShares a) ∧
  (∀ key shares, s.store.delegations.lookup key = some shares →
    0 < shares.raw ∧ (s.store.validators.lookup key.2).isSome) ∧
  (∀ s' a, Step k s s' → (s.store.validators.lookup a).isSome →
    s'.store.validators.lookup a = none → s'.store.ledger.delegatedShares a = 0)

/-- The share accounting holds in every state reachable from an accounted genesis. -/
theorem sharesAccounted_of_reachable [OrderBot A] {s₀ s : State A ε} (h₀ : s₀.store.ledger.SharesInv)
    (hs : Reachable k s₀ s) : SharesAccounted k s := by
  have hinv := hs.sharesInv h₀
  refine ⟨fun _ _ hv => hinv.shares_eq hv,
    fun _ _ hd => ⟨hinv.delegation_pos hd, hinv.delegation_validator hd⟩, ?_⟩
  -- after the step the accounting holds again, and it has no delegation to a missing validator
  intro s' a hstep _ hnone
  exact (hstep.sharesInv hinv).delegatedShares_of_not_stored hnone

end CosmosSdk.Staking
