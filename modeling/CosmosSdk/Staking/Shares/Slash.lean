import CosmosSdk.Staking.Shares.Delegation
import CosmosSdk.Staking.Slash

/-!
# Slashing keeps the accounting

`Slash` burns tokens without touching shares.  The unbonding entries it slashes are not part of the
ledger.  The validator it slashes loses tokens and keeps its shares.  Shares move in one place only:
`slashRedelegation` unbonds the slashed redelegations' shares at their destination validators.

Each destination differs from the slashed validator (`SharesInv.redelegation_ne`).  So the record
that `Slash` read at the start is still the stored one when it writes the tokens back: the loops keep
`FramedShares` of it.  `Jail` and `Unjail` write the stored record back with only its flag changed.
-/

namespace CosmosSdk.Staking

open StateExcept

variable {A : Type} [LinearOrder A]

namespace Keeper

variable {ε : Type} (k : Keeper A ε) {s s' : State A ε}

/-! ### Unbonding delegations -/

theorem keepsLedger_slashUnbondingEntries (ctx : Ctx) (delAddr valAddr : A) (infractionHeight : Int)
    (slashFactor : Dec) : ∀ (done entries : List UnbondingDelegationEntry) (total : Int),
      Guarantees SameLedger (slashUnbondingEntries (ε := ε) ctx delAddr valAddr infractionHeight
        slashFactor done entries total)
  | _, [], _ => Guarantees.pure _
  | done, entry :: entries, total => by
    have ih := fun done total =>
      keepsLedger_slashUnbondingEntries ctx delAddr valAddr infractionHeight slashFactor done entries total
    unfold slashUnbondingEntries
    dsimp only
    refine Guarantees.ite (fun _ => ih _ _) fun _ => ?_
    refine (Guarantees.lift _).bind fun _ => (Guarantees.lift _).bind fun _ =>
      (Guarantees.lift _).bind fun _ => Guarantees.ite (fun _ => ih _ _) fun _ => ?_
    exact (Guarantees.lift _).bind fun _ => (keepsLedger_setUnbondingDelegation _).bind fun _ =>
      keepsLedger_getPool.bind fun _ => (Guarantees.lift _).bind fun _ =>
        (keepsLedger_setPool _).bind fun _ => ih _ _

theorem keepsLedger_slashUnbondingDelegations (ctx : Ctx) (infractionHeight : Int) (slashFactor : Dec) :
    ∀ (ubds : List (UnbondingDelegation A)) (remaining : Int),
      Guarantees SameLedger
        (slashUnbondingDelegations (ε := ε) ctx infractionHeight slashFactor ubds remaining)
  | [], _ => Guarantees.pure _
  | ubd :: ubds, remaining => by
    unfold slashUnbondingDelegations slashUnbondingDelegation
    exact (keepsLedger_slashUnbondingEntries ctx _ _ infractionHeight slashFactor [] ubd.entries 0).bind
      fun _ => (Guarantees.ite (fun _ => Guarantees.pure _) fun _ => Guarantees.lift _).bind fun _ =>
        keepsLedger_slashUnbondingDelegations ctx infractionHeight slashFactor ubds _

/-! ### Redelegations -/

/-- The accounting holds and the validator `src` is stored as `v₀`. -/
def FramedShares (src : A) (v₀ : Validator A) (s : State A ε) : Prop :=
  s.store.ledger.SharesInv ∧ s.store.validators.lookup src = some v₀

theorem FramedShares.of_sameLedger {src : A} {v₀ : Validator A} (h : FramedShares src v₀ s)
    (e : SameLedger s s') : FramedShares src v₀ s' :=
  ⟨e.sharesInv h.1, by rw [e.validators]; exact h.2⟩

/-- An unbond at another validator than `src` keeps the frame. -/
theorem FramedShares.unbond {src : A} {v₀ : Validator A} {ctx : Ctx} {delAddr valAddr : A}
    {shares : Dec} {r : Except Error Int} (h : FramedShares src v₀ s) (hne : valAddr ≠ src)
    (hshares : 0 ≤ shares.raw) (hrun : k.unbond ctx delAddr valAddr shares s = .ok (r, s')) :
    FramedShares src v₀ s' ∧ ∀ amount, r = .ok amount → 0 ≤ amount := by
  obtain ⟨hinv, hamount, hrest⟩ := unbond_sharesInv k h.1 hshares hrun
  exact ⟨⟨hinv, (hrest src hne.symm).trans h.2⟩, hamount⟩

/-- The shares unbonded for a slashed entry: its share of the destination shares, at most the
delegation's shares. -/
theorem sharesToUnbond_nonneg {slashFactor sharesDst sharesToUnbond : Dec} (shares : Dec)
    (hfactor : 0 ≤ slashFactor.raw) (hdst : 0 ≤ sharesDst.raw) (hpos : 0 < shares.raw)
    (h : slashFactor.mul sharesDst = .ok sharesToUnbond) :
    0 ≤ (if sharesToUnbond.gt shares = true then shares else sharesToUnbond).raw := by
  split
  · exact hpos.le
  · rw [Dec.mul_eq_ok h]
    exact chopPrecisionAndRound_nonneg (Int.mul_nonneg hfactor hdst)

theorem slashRedelegationEntries_framed (src : A) (v₀ : Validator A) (ctx : Ctx) (delAddr valDstAddr : A)
    (infractionHeight : Int) {slashFactor : Dec} (hfactor : 0 ≤ slashFactor.raw) (hne : valDstAddr ≠ src) :
    ∀ (entries : List RedelegationEntry) (total : Int), (∀ e ∈ entries, 0 ≤ e.sharesDst.raw) →
      Triple (FramedShares src v₀)
        (k.slashRedelegationEntries ctx delAddr valDstAddr infractionHeight slashFactor entries total)
        fun _ => FramedShares src v₀
  | [], _, _ => Triple.pure fun _ h => h
  | entry :: entries, total, hentries => by
    have ih := fun total => slashRedelegationEntries_framed src v₀ ctx delAddr valDstAddr
      infractionHeight hfactor hne entries total fun e he => hentries e (List.mem_cons_of_mem _ he)
    intro s r s' hs h
    unfold slashRedelegationEntries at h
    dsimp only at h
    split at h
    · exact ih _ s r s' hs h
    obtain ⟨_, -, h⟩ := lift_bind_eq_ok.1 h
    obtain ⟨_, -, h⟩ := lift_bind_eq_ok.1 h
    obtain ⟨_, -, h⟩ := lift_bind_eq_ok.1 h
    obtain ⟨sharesToUnbond, hmul, h⟩ := lift_bind_eq_ok.1 h
    split at h
    · exact ih _ s r s' hs h
    rw [bind_eq_ok] at h
    obtain ⟨found, s₁, h₁, h⟩ := h
    obtain ⟨hfound, rfl⟩ := getDelegation_eq_ok.1 h₁
    cases found with
    | none => exact ih _ s r s' hs h
    | some delegation =>
    obtain ⟨shares, hshares, rfl⟩ := Option.map_eq_some_iff.1 hfound
    dsimp only at h
    rw [bind_eq_ok] at h
    obtain ⟨result, s₂, h₂, h⟩ := h
    have hnonneg := sharesToUnbond_nonneg shares hfactor (hentries entry List.mem_cons_self)
      (hs.1.delegation_pos hshares) hmul
    have hs₂ := (hs.unbond k hne hnonneg h₂).1
    cases result with
    | error _ => exact absurd h throw_ne_ok
    | ok tokensToBurn =>
    obtain ⟨_, s₃, e₃, h⟩ := keepsLedger_getPool.run_bind h
    obtain ⟨_, -, h⟩ := lift_bind_eq_ok.1 h
    obtain ⟨_, s₄, e₄, h⟩ := (keepsLedger_setPool _).run_bind h
    exact ih _ s₄ r s' ((hs₂.of_sameLedger e₃).of_sameLedger e₄) h

/-- The redelegations that `Slash` walks: out of `src`, each to another validator, with nonnegative
destination shares. -/
def SlashableFrom (src : A) (reds : List (Redelegation A)) : Prop :=
  ∀ red ∈ reds, red.validatorDstAddress ≠ src ∧ ∀ e ∈ red.entries, 0 ≤ e.sharesDst.raw

theorem slashRedelegations_framed (src : A) (v₀ : Validator A) (ctx : Ctx) (infractionHeight : Int)
    {slashFactor : Dec} (hfactor : 0 ≤ slashFactor.raw) :
    ∀ (reds : List (Redelegation A)) (remaining : Int), SlashableFrom src reds →
      Triple (FramedShares src v₀) (k.slashRedelegations ctx infractionHeight slashFactor reds remaining)
        fun _ => FramedShares src v₀
  | [], _, _ => Triple.pure fun _ h => h
  | red :: reds, remaining, hreds => by
    have ih := fun remaining => slashRedelegations_framed src v₀ ctx infractionHeight hfactor reds
      remaining fun r hr => hreds r (List.mem_cons_of_mem _ hr)
    obtain ⟨hne, hentries⟩ := hreds red List.mem_cons_self
    unfold slashRedelegations slashRedelegation
    refine Triple.bind (slashRedelegationEntries_framed k src v₀ ctx _ _ infractionHeight hfactor hne
      red.entries 0 hentries) fun _ => ?_
    refine Triple.bind (Triple.ite (fun _ => Triple.pure fun _ h => h)
      fun _ => Triple.lift fun _ _ h _ => h) fun _ => ih _

/-- The redelegations out of a validator of an accounted ledger are slashable from it. -/
theorem getRedelegationsFromValidator_slashable {valAddr : A} {reds : List (Redelegation A)}
    (hinv : s.store.ledger.SharesInv) (h : getRedelegationsFromValidator valAddr s = .ok (reds, s')) :
    SlashableFrom valAddr reds ∧ s = s' := by
  unfold getRedelegationsFromValidator at h
  obtain ⟨st, s₁, h₁, h⟩ := bind_eq_ok.1 h
  obtain ⟨rfl, rfl⟩ := getStore_eq_ok.1 h₁
  obtain ⟨rfl, rfl⟩ := pure_eq_ok.1 h
  refine ⟨fun red hred => ?_, rfl⟩
  obtain ⟨key, -, hkey⟩ := List.mem_filterMap.1 hred
  obtain ⟨entries, hentries, rfl⟩ := Option.map_eq_some_iff.1 hkey
  exact ⟨(hinv.redelegation_ne hentries).symm, hinv.sharesDst_nonneg hentries⟩

/-! ### `Slash`, `Jail` and `Unjail` -/

/-- `Slash` keeps the accounting: the slashed validator keeps its shares and keeps its tokens
between zero and them. -/
theorem slash_keepsShares (ctx : Ctx) (consAddr : A) (infractionHeight power : Int) (slashFactor : Dec) :
    KeepsShares (k.slash ctx consAddr infractionHeight power slashFactor) := by
  intro s u s' hinv h
  unfold slash at h
  dsimp only at h
  split at h
  · exact absurd h throw_bind_ne_ok
  rename_i hfactor
  have hfactor : 0 ≤ slashFactor.raw := by
    unfold Dec.lt Dec.zero at hfactor
    simpa using hfactor
  obtain ⟨_, -, h⟩ := lift_bind_eq_ok.1 h
  obtain ⟨_, -, h⟩ := lift_bind_eq_ok.1 h
  obtain ⟨_, -, h⟩ := lift_bind_eq_ok.1 h
  rw [bind_eq_ok] at h
  obtain ⟨found, s₁, h₁, h⟩ := h
  obtain ⟨hfound, rfl⟩ := getValidatorByConsAddr_eq_ok.1 h₁
  cases found with
  | none =>
    obtain ⟨-, rfl⟩ := pure_eq_ok.1 h
    exact hinv
  | some validator =>
  dsimp only at h
  split at h
  · exact absurd h throw_bind_ne_ok
  -- the slashed validator, stored under its operator address, is the frame of the loops
  have hs : FramedShares validator.operatorAddress validator s :=
    ⟨hinv, hinv.lookup_of_bind hfound⟩
  obtain ⟨_, s₅, e₅, h⟩ := (keepsLedger_onRest _).run_bind h
  rw [bind_eq_ok] at h
  obtain ⟨remaining, s₆, h₆, h⟩ := h
  have hs₆ : FramedShares validator.operatorAddress validator s₆ := by
    have hs₅ := hs.of_sameLedger e₅
    split at h₆
    · exact absurd h₆ throw_ne_ok
    split at h₆
    · obtain ⟨-, rfl⟩ := pure_eq_ok.1 h₆
      exact hs₅
    obtain ⟨_, s₇, e₇, h₆⟩ := (keepsLedger_getUnbondingDelegationsFromValidator _).run_bind h₆
    obtain ⟨_, s₈, e₈, h₆⟩ := (keepsLedger_slashUnbondingDelegations ctx _ _ _ _).run_bind h₆
    have hs₈ := (hs₅.of_sameLedger e₇).of_sameLedger e₈
    rw [bind_eq_ok] at h₆
    obtain ⟨reds, s₉, h₉, h₆⟩ := h₆
    obtain ⟨hreds, rfl⟩ := getRedelegationsFromValidator_slashable hs₈.1 h₉
    exact slashRedelegations_framed k _ _ ctx infractionHeight hfactor reds _ hreds s₈ remaining s₆ hs₈ h₆
  obtain ⟨_, s₁₀, e₁₀, h⟩ := (Guarantees.ite (fun _ => (Guarantees.lift _).bind fun _ =>
    keepsLedger_onRest _) fun _ => Guarantees.pure _).run_bind h
  have hs₁₀ := hs₆.of_sameLedger e₁₀
  rw [bind_eq_ok] at h
  obtain ⟨v', s₁₁, h₁₁, h⟩ := h
  obtain ⟨⟨pool, pool', hremove⟩, e₁₁⟩ := removeValidatorTokens_ledger h₁₁
  obtain ⟨rfl, hburn, hle, -⟩ := Validator.removeTokens_eq_ok hremove
  obtain ⟨_, s₁₂, e₁₂, h⟩ := keepsLedger_getPool.run_bind h
  obtain ⟨_, -, h⟩ := lift_bind_eq_ok.1 h
  have e' := (keepsLedger_setPool _) _ _ _ h
  -- the tokens burnt are at most the validator's: it keeps nonnegative tokens and its shares
  have hinv₁₁ : s₁₁.store.ledger.SharesInv :=
    sharesInv_of_burn hs₁₀.1 hs₁₀.2 e₁₁ rfl rfl (by dsimp only; omega) (by dsimp only; omega)
  exact e'.sharesInv (e₁₂.sharesInv hinv₁₁)

theorem jail_keepsShares (consAddr : A) : KeepsShares (jail (ε := ε) consAddr) := by
  intro s u s' hinv h
  unfold jail at h
  rw [bind_eq_ok] at h
  obtain ⟨v, s₁, h₁, h⟩ := h
  obtain ⟨hfound, rfl⟩ := mustGetValidatorByConsAddr_eq_ok.1 h₁
  exact sharesInv_of_restake hinv (hinv.lookup_of_bind hfound) (jailValidator_ledger h).2 rfl rfl rfl

theorem unjail_keepsShares (consAddr : A) : KeepsShares (unjail (ε := ε) consAddr) := by
  intro s u s' hinv h
  unfold unjail at h
  rw [bind_eq_ok] at h
  obtain ⟨v, s₁, h₁, h⟩ := h
  obtain ⟨hfound, rfl⟩ := mustGetValidatorByConsAddr_eq_ok.1 h₁
  exact sharesInv_of_restake hinv (hinv.lookup_of_bind hfound) (unjailValidator_ledger h).2 rfl rfl rfl

end Keeper

end CosmosSdk.Staking
