import CosmosSdk.Staking.Shares.Methods
import CosmosSdk.Staking.Delegation
import CosmosSdk.Staking.Handler

/-!
# Delegating and unbonding keep the accounting

`Delegate` of a positive amount issues positive shares, and writes the delegation and its
validator's shares together.  `unbond` takes the shares off the delegation and the validator
together.  On the way it may jail the operator's own validator, and it removes an unbonded validator
only when no shares are left.  It touches no validator but its own, which is what the slashing of
redelegations needs.

`Undelegate` and `BeginRedelegation` of nonnegative shares keep the accounting.  After the unbond,
`Undelegate` only pays out or queues tokens.  `BeginRedelegation` delegates the positive amount it got
back to another validator, and records the positive shares created there.
-/

namespace CosmosSdk.Staking

open StateExcept

variable {A : Type} [LinearOrder A]

namespace Keeper

/-! ### Delegating -/

section Delegate

variable {ε : Type} (k : Keeper A ε) {s s' : State A ε}

omit [LinearOrder A] in
/-- The bank call of `Delegate` touches the rest of the state only. -/
theorem keepsLedger_delegateBank (ctx : Ctx) (sub : Bool) (delAddr : A) (bondAmt : Int) :
    Guarantees SameLedger (if sub = true then do
        let params ← getParams
        let coin ← liftM (newCoin bondAmt)
        onRest fun _ => k.bankKeeper.delegateCoins ctx delAddr params.bondDenom coin
      else (pure none : KeeperM A ε (Option Error))) :=
  Guarantees.ite
    (fun _ => keepsLedger_getParams.bind fun _ => (Guarantees.lift _).bind fun _ => keepsLedger_onRest _)
    (fun _ => Guarantees.pure _)

/-- `Delegate` of a positive amount to a stored validator keeps the accounting, and issues positive
shares. -/
theorem delegate_sharesInv {ctx : Ctx} {delAddr : A} {bondAmt : Int} {validator : Validator A}
    {sub : Bool} {r : Except Error Dec} (hinv : s.store.ledger.SharesInv)
    (hv : s.store.validators.lookup validator.operatorAddress = some validator) (hamt : 0 < bondAmt)
    (h : k.delegate ctx delAddr bondAmt validator sub s = .ok (r, s')) :
    s'.store.ledger.SharesInv ∧ ∀ issued, r = .ok issued → 0 < issued.raw := by
  unfold delegate at h
  dsimp only at h
  split at h
  · -- an invalid exchange rate changes nothing
    obtain ⟨rfl, rfl⟩ := pure_eq_ok.1 h
    exact ⟨hinv, fun _ h => by cases h⟩
  rw [bind_eq_ok] at h
  obtain ⟨found, s₁, h₁, h⟩ := h
  obtain ⟨hfound, rfl⟩ := getDelegation_eq_ok.1 h₁
  rw [bind_eq_ok] at h
  obtain ⟨_, s₂, h₂, h⟩ := h
  have e₂ : SameLedger s s₂ := by
    cases found <;> exact keepsLedger_onRest _ _ _ _ h₂
  rw [bind_eq_ok] at h
  obtain ⟨bankErr, s₃, h₃, h⟩ := h
  have e₃ := keepsLedger_delegateBank k ctx sub _ bondAmt s₂ bankErr s₃ h₃
  split at h
  · -- the bank keeper refused: nothing of the ledger changed
    obtain ⟨rfl, rfl⟩ := pure_eq_ok.1 h
    refine ⟨?_, fun _ h => by cases h⟩
    rw [e₃, e₂]
    exact hinv
  rw [bind_eq_ok] at h
  obtain ⟨⟨v', issued⟩, s₄, h₄, h⟩ := h
  obtain ⟨⟨pool, pool', hadd⟩, e₄⟩ := addValidatorTokensAndShares_ledger h₄
  rw [bind_eq_ok] at h
  obtain ⟨shares, s₅, h₅, h⟩ := h
  obtain ⟨hshares, rfl⟩ := lift_eq_ok.1 h₅
  rw [bind_eq_ok] at h
  obtain ⟨_, s₆, h₆, h⟩ := h
  rw [setDelegation_eq_ok] at h₆
  subst h₆
  rw [bind_eq_ok] at h
  obtain ⟨_, s₇, h₇, h⟩ := h
  have e₇ := keepsLedger_onRest _ _ _ _ h₇
  obtain ⟨rfl, rfl⟩ := pure_eq_ok.1 h
  have hL : s₃.store.ledger = s.store.ledger := e₃.trans e₂
  have hvals : s₄.store.validators = s.store.validators.insert validator.operatorAddress v' :=
    (congrArg Ledger.validators e₄).trans
      (congrArg (fun L : Ledger A => L.validators.insert validator.operatorAddress v') hL)
  have hdels : s₄.store.delegations = s.store.delegations :=
    (congrArg Ledger.delegations e₄).trans (congrArg Ledger.delegations hL)
  have hreds : s₄.store.redelegations = s.store.redelegations :=
    (congrArg Ledger.redelegations e₄).trans (congrArg Ledger.redelegations hL)
  -- the delegation written is the one read, or a new one, under the key of the pair
  have hkey : ((found.getD ⟨delAddr, validator.operatorAddress, Dec.zero⟩).delegatorAddress,
      (found.getD ⟨delAddr, validator.operatorAddress, Dec.zero⟩).validatorAddress) =
      (delAddr, validator.operatorAddress) := by
    rw [← hfound]
    cases s.store.delegations.lookup (delAddr, validator.operatorAddress) <;> rfl
  have hold : (found.getD ⟨delAddr, validator.operatorAddress, Dec.zero⟩).shares.raw =
      s.store.ledger.delegationShares (delAddr, validator.operatorAddress) := by
    rw [← hfound]
    show _ = ((s.store.delegations.lookup (delAddr, validator.operatorAddress)).map Dec.raw).getD 0
    cases s.store.delegations.lookup (delAddr, validator.operatorAddress) <;> rfl
  have hnew := Dec.add_eq_ok hshares
  obtain ⟨rfl, -, -, -⟩ := Validator.addTokensFromDel_eq_ok hadd
  obtain ⟨hissued, hle⟩ := Validator.addTokensFromDel_bounds (hinv.tokens_nonneg hv)
    (hinv.tokens_le_shares hv) hamt hadd
  have hold_nonneg : 0 ≤ s.store.ledger.delegationShares (delAddr, validator.operatorAddress) := by
    unfold Ledger.delegationShares
    cases hd : s.store.ledger.delegations.lookup (delAddr, validator.operatorAddress) with
    | none => exact le_rfl
    | some d => exact (hinv.delegation_pos hd).le
  refine ⟨?_, fun _ h => ?_⟩
  · rw [e₇]
    refine hinv.insert_delegation (delAddr, validator.operatorAddress) shares hv hvals ?_ hreds rfl ?_ ?_
      (add_nonneg (hinv.tokens_nonneg hv) hamt.le) hle
    · show s₄.store.delegations.insert _ shares = _
      rw [hkey, hdels]
      rfl
    · dsimp only at hnew ⊢
      omega
    · dsimp only at hnew
      omega
  · cases h
    exact hissued

/-- `Delegate` writes back the validator it was given, with more tokens and shares: its key and its
jail flag stay. -/
theorem delegate_validator {ctx : Ctx} {delAddr : A} {bondAmt : Int} {validator : Validator A}
    {sub : Bool} {issued : Dec} (h : k.delegate ctx delAddr bondAmt validator sub s = .ok (.ok issued, s')) :
    ∃ v', s'.store.validators.lookup validator.operatorAddress = some v' ∧
      v'.consAddress = validator.consAddress ∧ v'.jailed = validator.jailed := by
  unfold delegate at h
  dsimp only at h
  split at h
  · cases (pure_eq_ok.1 h).1
  rw [bind_eq_ok] at h
  obtain ⟨found, s₁, h₁, h⟩ := h
  obtain ⟨-, rfl⟩ := getDelegation_eq_ok.1 h₁
  rw [bind_eq_ok] at h
  obtain ⟨_, s₂, -, h⟩ := h
  rw [bind_eq_ok] at h
  obtain ⟨bankErr, s₃, -, h⟩ := h
  split at h
  · cases (pure_eq_ok.1 h).1
  rw [bind_eq_ok] at h
  obtain ⟨⟨v', issued'⟩, s₄, h₄, h⟩ := h
  obtain ⟨⟨pool, pool', hadd⟩, e₄⟩ := addValidatorTokensAndShares_ledger h₄
  rw [bind_eq_ok] at h
  obtain ⟨shares, s₅, h₅, h⟩ := h
  obtain ⟨-, rfl⟩ := lift_eq_ok.1 h₅
  rw [bind_eq_ok] at h
  obtain ⟨_, s₆, h₆, h⟩ := h
  rw [setDelegation_eq_ok] at h₆
  subst h₆
  rw [bind_eq_ok] at h
  obtain ⟨_, s₇, h₇, h⟩ := h
  obtain ⟨-, rfl⟩ := pure_eq_ok.1 h
  -- only the write of `addValidatorTokensAndShares` reaches the validators
  have hvals : s₄.store.validators = s₃.store.validators.insert validator.operatorAddress v' :=
    congrArg Ledger.validators e₄
  have hlookup : s₇.store.validators.lookup validator.operatorAddress = some v' := by
    rw [(keepsLedger_onRest _ _ _ _ h₇).validators]
    show s₄.store.validators.lookup _ = _
    rw [hvals, Finmap.lookup_insert]
  obtain ⟨rfl, -⟩ := Validator.addTokensFromDel_eq_ok hadd
  exact ⟨_, hlookup, rfl, rfl⟩

/-- The self-delegation check of `unbond` may jail the operator's validator: the record read back has
the shares and tokens it had. -/
theorem unbond_jail_ledger {delegatorAddress : A} {validator v' : Validator A} {remaining : Dec}
    (hv : s.store.validators.lookup validator.operatorAddress = some validator)
    (h : (if delegatorAddress = validator.operatorAddress ∧ (!validator.jailed) = true then do
        let worth ← liftM (validator.shareTokens remaining)
        let selfTokens ← liftM worth.truncateInt
        if selfTokens < validator.minSelfDelegation then do
            jailValidator validator
            mustGetValidator validator.operatorAddress
          else pure validator
      else (pure validator : KeeperM A ε (Validator A))) s = .ok (v', s')) :
    s'.store.ledger =
      { s.store.ledger with validators := s.store.validators.insert validator.operatorAddress v' } ∧
      v'.operatorAddress = validator.operatorAddress ∧
      v'.delegatorShares = validator.delegatorShares ∧ v'.tokens = validator.tokens := by
  have hsame : ({ s.store.ledger with
      validators := s.store.validators.insert validator.operatorAddress validator } : Ledger A) =
      s.store.ledger := by
    have hins : s.store.validators.insert validator.operatorAddress validator = s.store.validators :=
      Finmap.ext_lookup fun b => by
        by_cases hb : b = validator.operatorAddress
        · rw [hb, Finmap.lookup_insert, hv]
        · exact Finmap.lookup_insert_of_ne _ hb
    rw [hins]
    rfl
  split at h
  · rw [bind_eq_ok] at h
    obtain ⟨worth, s₁, h₁, h⟩ := h
    obtain ⟨-, rfl⟩ := lift_eq_ok.1 h₁
    rw [bind_eq_ok] at h
    obtain ⟨selfTokens, s₂, h₂, h⟩ := h
    obtain ⟨-, rfl⟩ := lift_eq_ok.1 h₂
    split at h
    · rw [bind_eq_ok] at h
      obtain ⟨_, s₃, h₃, h⟩ := h
      obtain ⟨-, e₃⟩ := jailValidator_ledger h₃
      obtain ⟨hlookup, rfl⟩ := mustGetValidator_eq_ok.1 h
      simp only [Store.validators_eq_of_ledger e₃, Finmap.lookup_insert, Option.some.injEq] at hlookup
      subst hlookup
      exact ⟨e₃, rfl, rfl, rfl⟩
    · obtain ⟨rfl, rfl⟩ := pure_eq_ok.1 h
      exact ⟨hsame.symm, rfl, rfl, rfl⟩
  · obtain ⟨rfl, rfl⟩ := pure_eq_ok.1 h
    exact ⟨hsame.symm, rfl, rfl, rfl⟩

/-- `unbond` of nonnegative shares keeps the accounting, pays a nonnegative amount, and touches no
validator but `valAddr`. -/
theorem unbond_sharesInv {ctx : Ctx} {delAddr valAddr : A} {shares : Dec} {r : Except Error Int}
    (hinv : s.store.ledger.SharesInv) (hshares : 0 ≤ shares.raw)
    (h : k.unbond ctx delAddr valAddr shares s = .ok (r, s')) :
    s'.store.ledger.SharesInv ∧ (∀ amount, r = .ok amount → 0 ≤ amount) ∧
      ∀ b, b ≠ valAddr → s'.store.validators.lookup b = s.store.validators.lookup b := by
  unfold unbond at h
  dsimp only at h
  rw [bind_eq_ok] at h
  obtain ⟨found, s₁, h₁, h⟩ := h
  obtain ⟨hfound, rfl⟩ := getDelegation_eq_ok.1 h₁
  cases found with
  | none =>
    obtain ⟨rfl, rfl⟩ := pure_eq_ok.1 h
    exact ⟨hinv, fun _ h => (by cases h), fun _ _ => rfl⟩
  | some delegation =>
  obtain ⟨d₀, hd₀, rfl⟩ := Option.map_eq_some_iff.1 hfound
  dsimp only at h
  rw [bind_eq_ok] at h
  obtain ⟨_, s₂, h₂, h⟩ := h
  have e₂ := keepsLedger_onRest _ _ _ _ h₂
  have hinv₂ : s₂.store.ledger.SharesInv := e₂ ▸ hinv
  split at h
  · obtain ⟨rfl, rfl⟩ := pure_eq_ok.1 h
    exact ⟨hinv₂, fun _ h => (by cases h), fun b _ => by rw [e₂.validators]⟩
  rename_i hlt
  rw [bind_eq_ok] at h
  obtain ⟨found, s₃, h₃, h⟩ := h
  obtain ⟨hfound', rfl⟩ := getValidator_eq_ok.1 h₃
  cases found with
  | none =>
    obtain ⟨rfl, rfl⟩ := pure_eq_ok.1 h
    exact ⟨hinv₂, fun _ h => (by cases h), fun b _ => by rw [e₂.validators]⟩
  | some validator =>
  dsimp only at h
  rw [bind_eq_ok] at h
  obtain ⟨remaining, s₄, h₄, h⟩ := h
  obtain ⟨hremaining, rfl⟩ := lift_eq_ok.1 h₄
  have hraw := Dec.sub_eq_ok hremaining
  have hop : validator.operatorAddress = valAddr := hinv₂.operator_eq hfound'
  subst hop
  rw [bind_eq_ok] at h
  obtain ⟨v₁, s₅, h₅, h⟩ := h
  obtain ⟨e₅, hop₁, hsh₁, htok₁⟩ := unbond_jail_ledger hfound' h₅
  have hinv₅ : s₅.store.ledger.SharesInv := by
    rw [e₅, ← hop₁]
    exact hinv₂.setValidator (hop₁ ▸ hfound') hsh₁ (htok₁ ▸ hinv₂.tokens_nonneg hfound')
      htok₁.le
  have hv₁ : s₅.store.validators.lookup validator.operatorAddress = some v₁ := by
    rw [Store.validators_eq_of_ledger e₅]
    exact Finmap.lookup_insert _
  rw [bind_eq_ok] at h
  obtain ⟨_, s₆, h₆, h⟩ := h
  -- the delegation loses the shares, and goes when none are left
  have e₆ : s₆.store.ledger = { s₅.store.ledger with delegations :=
      (if remaining.isZero = true then s₅.store.delegations.erase (delAddr, validator.operatorAddress)
      else s₅.store.delegations.insert (delAddr, validator.operatorAddress) remaining) } := by
    split at h₆
    · rename_i hz
      rw [removeDelegation_ledger k h₆, if_pos hz]
    · rename_i hz
      rw [bind_eq_ok] at h₆
      obtain ⟨_, s₆', h₆', h₆⟩ := h₆
      rw [setDelegation_eq_ok] at h₆'
      subst h₆'
      rw [keepsLedger_onRest _ _ _ _ h₆, if_neg hz]
      rfl
  rw [bind_eq_ok] at h
  obtain ⟨⟨v₂, amount⟩, s₇, h₇, h⟩ := h
  obtain ⟨⟨pool, pool', hrem⟩, e₇⟩ := removeValidatorTokensAndShares_ledger h₇
  rw [bind_eq_ok] at h
  obtain ⟨_, s₈, h₈, h⟩ := h
  obtain ⟨rfl, rfl⟩ := pure_eq_ok.1 h
  -- the shares unbonded are at most the delegation's, so at most the validator's
  have hd₅ : s₅.store.delegations.lookup (delAddr, validator.operatorAddress) = some d₀ := by
    simp only [Store.delegations_eq_of_ledger e₅, Store.ledger_delegations, e₂.delegations]
    exact hd₀
  have hle_d : shares.raw ≤ d₀.raw := by
    simp only [Dec.lt, decide_eq_true_eq, not_lt] at hlt
    exact hlt
  have hold : s₅.store.ledger.delegationShares (delAddr, validator.operatorAddress) = d₀.raw := by
    simp only [Ledger.delegationShares, Store.ledger_delegations, hd₅, Option.map_some,
      Option.getD_some]
  have hle_v : shares.raw ≤ v₁.delegatorShares.raw := by
    have := hinv₅.delegationShares_le (delAddr, validator.operatorAddress)
    rw [← hinv₅.shares_eq hv₁, hold] at this
    omega
  obtain ⟨hamount, hnonneg₂, hle₂⟩ := Validator.removeDelShares_bounds (hinv₅.tokens_nonneg hv₁)
    (hinv₅.tokens_le_shares hv₁) hshares hle_v hrem
  obtain ⟨tokens₂, rfl, -, -, -⟩ := Validator.removeDelShares_eq_ok hrem
  have hvals₇ : s₇.store.validators = s₅.store.validators.insert validator.operatorAddress
      { v₁ with tokens := tokens₂, delegatorShares := ⟨v₁.delegatorShares.raw - shares.raw⟩ } := by
    simp only [Store.validators_eq_of_ledger e₇, Store.validators_eq_of_ledger e₆,
      Store.ledger_validators, hop₁]
  have hdels₇ : s₇.store.delegations = s₆.store.delegations := Store.delegations_eq_of_ledger e₇
  have hreds₇ : s₇.store.ledger.redelegations = s₅.store.ledger.redelegations := by
    simp only [Store.ledger_redelegations, Store.redelegations_eq_of_ledger e₇,
      Store.redelegations_eq_of_ledger e₆]
  have hinv₇ : s₇.store.ledger.SharesInv := by
    by_cases hz : remaining.isZero = true
    · -- no shares are left, and the delegation goes
      have hzero : remaining.raw = 0 := by simpa [Dec.isZero] using hz
      refine hinv₅.erase_delegation (delAddr, validator.operatorAddress) hv₁ hvals₇ ?_ hreds₇ hop₁ ?_
        hnonneg₂ hle₂
      · rw [Store.ledger_delegations, hdels₇, Store.delegations_eq_of_ledger e₆, if_pos hz]
        rfl
      · dsimp only
        omega
    · have hzero : remaining.raw ≠ 0 := by simpa [Dec.isZero] using hz
      refine hinv₅.insert_delegation (delAddr, validator.operatorAddress) remaining hv₁ hvals₇ ?_ hreds₇
        hop₁ ?_ ?_ hnonneg₂ hle₂
      · rw [Store.ledger_delegations, hdels₇, Store.delegations_eq_of_ledger e₆, if_neg hz]
        rfl
      · dsimp only
        omega
      · omega
  have hv₂ : s₇.store.validators.lookup validator.operatorAddress =
      some { v₁ with tokens := tokens₂, delegatorShares := ⟨v₁.delegatorShares.raw - shares.raw⟩ } := by
    rw [hvals₇]
    exact Finmap.lookup_insert _
  have hrest₇ : ∀ b, b ≠ validator.operatorAddress →
      s₇.store.validators.lookup b = s.store.validators.lookup b := by
    intro b hb
    simp only [hvals₇, Finmap.lookup_insert_of_ne _ hb, Store.validators_eq_of_ledger e₅,
      e₂.validators]
  split at h₈
  · rename_i hzero
    have e₈ := removeValidator_ledger k h₈
    dsimp only at e₈
    rw [hop₁] at e₈
    refine ⟨?_, fun a ha => by cases ha; exact hamount, fun b hb => ?_⟩
    · rw [e₈]
      exact hinv₇.removeValidator hv₂ (by simpa [Dec.isZero] using hzero.1)
    · rw [Store.validators_eq_of_ledger e₈]
      exact (Finmap.lookup_erase_ne hb).trans (hrest₇ b hb)
  · obtain ⟨-, rfl⟩ := pure_eq_ok.1 h₈
    exact ⟨hinv₇, fun a ha => by cases ha; exact hamount, hrest₇⟩

/-! ### Creating a validator -/

/-- What a run of `handleMsgCreateValidator` does: a failed check returns its error with the ledger as
it was; otherwise the new validator, with no tokens or shares, is stored at the free operator address
and indexed, and the message's amount is delegated to it. -/
theorem handleMsgCreateValidator_eq_ok {ctx : Ctx} {description : Description}
    {commission : CommissionMsg} {minSelfDelegation : Int} {delegatorAddress validatorAddress pubKey : A}
    {value : Coin} {r : Except Error Unit}
    (h : k.handleMsgCreateValidator ctx description commission minSelfDelegation delegatorAddress
      validatorAddress pubKey value s = .ok (r, s')) :
    (SameLedger s s' ∧ r ≠ .ok ()) ∨
    ∃ validator, validator = { Validator.new validatorAddress pubKey description with
        commission := newCommissionWithTime commission.rate commission.maxRate commission.maxChangeRate
          ctx.time,
        minSelfDelegation := minSelfDelegation } ∧
      ∃ s₁ result, s.store.validators.lookup validatorAddress = none ∧
        s₁.store.ledger =
          { s.store.ledger with validators := s.store.validators.insert validatorAddress validator } ∧
        k.delegate ctx delegatorAddress value.amount validator true s₁ = .ok (result, s') ∧
        r = result.map fun _ => () := by
  have hfail : ∀ {s₁ : State A ε} {err : Error}, SameLedger s s₁ →
      (pure (.error err) : KeeperM A ε (Except Error Unit)) s₁ = .ok (r, s') →
      SameLedger s s' ∧ r ≠ .ok () := by
    intro s₁ err e₁ h
    obtain ⟨rfl, rfl⟩ := pure_eq_ok.1 h
    exact ⟨e₁, fun h => by cases h⟩
  unfold handleMsgCreateValidator at h
  rw [bind_eq_ok] at h
  obtain ⟨found, s₁, h₁, h⟩ := h
  obtain ⟨hfound, rfl⟩ := getValidator_eq_ok.1 h₁
  dsimp only at h
  split at h
  · exact .inl (hfail (Std.Refl.refl s) h)
  rename_i hnew
  have hnone : s.store.validators.lookup validatorAddress = none := by
    rw [hfound]
    simpa using hnew
  obtain ⟨_, s₂, e₂, h⟩ := (keepsLedger_getValidatorByConsAddr _).run_bind h
  split at h
  · exact .inl (hfail e₂ h)
  obtain ⟨_, s₃, e₃, h⟩ := keepsLedger_getParams.run_bind h
  have e₃' : SameLedger s s₃ := IsTrans.trans _ _ _ e₂ e₃
  split at h
  · exact .inl (hfail e₃' h)
  cases hlength : description.ensureLength with
  | error _ =>
    simp only [hlength] at h
    exact .inl (hfail e₃' h)
  | ok _ =>
  simp only [hlength] at h
  cases hcomm : (Validator.new validatorAddress pubKey description).setInitialCommission
      (newCommissionWithTime commission.rate commission.maxRate commission.maxChangeRate ctx.time) with
  | error _ =>
    simp only [hcomm] at h
    exact .inl (hfail e₃' h)
  | ok validator =>
  simp only [hcomm] at h
  obtain rfl := Validator.setInitialCommission_eq_ok hcomm
  rw [bind_eq_ok] at h
  obtain ⟨_, s₄, h₄, h⟩ := h
  rw [setValidator_eq_ok] at h₄
  subst h₄
  obtain ⟨_, s₅, e₅, h⟩ := (keepsLedger_setValidatorByConsAddr _).run_bind h
  obtain ⟨_, s₆, e₆, h⟩ := (keepsLedger_setNewValidatorByPowerIndex _).run_bind h
  obtain ⟨_, s₇, e₇, h⟩ := (keepsLedger_onRest _).run_bind h
  rw [bind_eq_ok] at h
  obtain ⟨result, s₈, h₈, h⟩ := h
  have hr : r = result.map (fun _ => ()) ∧ s' = s₈ := by
    cases result <;>
    · obtain ⟨rfl, rfl⟩ := pure_eq_ok.1 h
      exact ⟨rfl, rfl⟩
  obtain ⟨rfl, rfl⟩ := hr
  refine .inr ⟨_, rfl, s₇, result, hnone, ?_, h₈, rfl⟩
  -- the indexes and the hook leave the ledger as the write of the validator made it
  rw [e₇, e₆, e₅]
  show ({ s₃.store.ledger with validators := s₃.store.validators.insert validatorAddress _ } : Ledger A) = _
  rw [Store.validators_eq_of_ledger e₃', e₃']
  rfl

/-! ### Undelegating and redelegating -/

theorem keepsLedger_getBeginInfo (ctx : Ctx) (valSrcAddr : A) :
    Guarantees SameLedger (getBeginInfo (ε := ε) ctx valSrcAddr) := by
  unfold getBeginInfo
  refine (keepsLedger_getValidator _).bind fun found => ?_
  split
  · exact Guarantees.pure _
  · exact Guarantees.pure _
  · exact keepsLedger_getParams.bind fun _ => Guarantees.pure _

theorem unbond_keepsShares {ctx : Ctx} {delAddr valAddr : A} {shares : Dec} (hshares : 0 ≤ shares.raw) :
    KeepsShares (k.unbond ctx delAddr valAddr shares) :=
  fun _ _ _ hinv h => (unbond_sharesInv k hinv hshares h).1

/-- `Undelegate` of nonnegative shares keeps the accounting: after the unbond it only pays out or
queues the tokens. -/
theorem undelegate_keepsShares {ctx : Ctx} {delAddr valAddr : A} {sharesAmount : Dec}
    (hshares : 0 ≤ sharesAmount.raw) : KeepsShares (k.undelegate ctx delAddr valAddr sharesAmount) := by
  unfold undelegate
  refine (KeepsShares.of_keepsLedger (keepsLedger_getBeginInfo ctx valAddr)).bind
    fun ⟨completionTime, height, completeNow⟩ => ?_
  refine (unbond_keepsShares k hshares).bind fun result => KeepsShares.of_keepsLedger ?_
  cases result with
  | error _ => exact Guarantees.pure _
  | ok returnAmount =>
  refine keepsLedger_getParams.bind fun params => (Guarantees.lift _).bind fun balance => ?_
  refine Guarantees.ite (fun _ => Guarantees.ite (fun _ => ?_) fun _ => Guarantees.pure _) fun _ => ?_
  · refine (keepsLedger_onRest _).bind fun err => ?_
    cases err <;> exact Guarantees.pure _
  · refine (keepsLedger_hasMaxUnbondingDelegationEntries _ _).bind fun _ =>
      Guarantees.ite (fun _ => Guarantees.pure _) fun _ => ?_
    exact (keepsLedger_setUnbondingDelegationEntry _ _ _ _ _).bind fun _ =>
      (keepsLedger_insertUBDQueue _ _).bind fun _ => Guarantees.pure _

/-- `BeginRedelegation` of nonnegative shares keeps the accounting: the tokens the source gives back
are delegated to another validator, and the entry records the positive shares created there. -/
theorem beginRedelegation_keepsShares {ctx : Ctx} {delAddr valSrcAddr valDstAddr : A}
    {sharesAmount : Dec} (hshares : 0 ≤ sharesAmount.raw) :
    KeepsShares (k.beginRedelegation ctx delAddr valSrcAddr valDstAddr sharesAmount) := by
  intro s r s' hinv h
  unfold beginRedelegation at h
  dsimp only at h
  split at h
  · obtain ⟨-, rfl⟩ := pure_eq_ok.1 h
    exact hinv
  rename_i hne
  obtain ⟨_, s₁, e₁, h⟩ := (keepsLedger_hasReceivingRedelegation _ _).run_bind h
  split at h
  · obtain ⟨-, rfl⟩ := pure_eq_ok.1 h
    exact e₁.sharesInv hinv
  obtain ⟨_, s₂, e₂, h⟩ := (keepsLedger_hasMaxRedelegationEntries _ _ _).run_bind h
  have hinv₂ := e₂.sharesInv (e₁.sharesInv hinv)
  split at h
  · obtain ⟨-, rfl⟩ := pure_eq_ok.1 h
    exact hinv₂
  rw [bind_eq_ok] at h
  obtain ⟨result, s₃, h₃, h⟩ := h
  obtain ⟨hinv₃, hamount, -⟩ := unbond_sharesInv k hinv₂ hshares h₃
  cases result with
  | error _ =>
    obtain ⟨-, rfl⟩ := pure_eq_ok.1 h
    exact hinv₃
  | ok returnAmount =>
  dsimp only at h
  split at h
  · obtain ⟨-, rfl⟩ := pure_eq_ok.1 h
    exact hinv₃
  rename_i hzero
  have hpos : 0 < returnAmount := lt_of_le_of_ne (hamount _ rfl) (Ne.symm hzero)
  rw [bind_eq_ok] at h
  obtain ⟨found, s₄, h₄, h⟩ := h
  obtain ⟨hfound, rfl⟩ := getValidator_eq_ok.1 h₄
  cases found with
  | none =>
    obtain ⟨-, rfl⟩ := pure_eq_ok.1 h
    exact hinv₃
  | some dstValidator =>
  dsimp only at h
  rw [bind_eq_ok] at h
  obtain ⟨result, s₅, h₅, h⟩ := h
  have hdst : s₃.store.validators.lookup dstValidator.operatorAddress = some dstValidator := by
    rw [hinv₃.operator_eq hfound]
    exact hfound
  obtain ⟨hinv₅, hissued⟩ := delegate_sharesInv k hinv₃ hdst hpos h₅
  cases result with
  | error _ =>
    obtain ⟨-, rfl⟩ := pure_eq_ok.1 h
    exact hinv₅
  | ok sharesCreated =>
  dsimp only at h
  obtain ⟨⟨completionTime, height, completeNow⟩, s₆, e₆, h⟩ :=
    (keepsLedger_getBeginInfo ctx valSrcAddr).run_bind h
  have hinv₆ := e₆.sharesInv hinv₅
  dsimp only at h
  split at h
  · obtain ⟨-, rfl⟩ := pure_eq_ok.1 h
    exact hinv₆
  rw [bind_eq_ok] at h
  obtain ⟨red, s₇, h₇, h⟩ := h
  have hinv₇ := setRedelegationEntry_sharesInv hinv₆ hne (hissued _ rfl).le h₇
  obtain ⟨_, s₈, e₈, h⟩ := (keepsLedger_insertRedelegationQueue _ _).run_bind h
  obtain ⟨-, rfl⟩ := pure_eq_ok.1 h
  exact e₈.sharesInv hinv₇

end Delegate

end Keeper

end CosmosSdk.Staking
