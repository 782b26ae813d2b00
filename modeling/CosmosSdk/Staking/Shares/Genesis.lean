import CosmosSdk.Staking.Genesis
import CosmosSdk.Staking.Shares.Step

/-!
# The share accounting from genesis

`InitGenesis` writes the records of a genesis state over the ledger in order: each validator under its
operator address, each delegation under its two addresses, each redelegation under its three
(`GenesisState.writeLedger`).  Its indexes, queues, hooks and last step leave the accounting as it is,
so the ledger it leaves is accounted when the records it wrote are (`initGenesis_sharesInv`), and then
so is every state reachable from it (`sharesAccounted_of_initGenesis`).

`ValidateGenesis` checks none of this.  A genesis that it accepts can hold a validator with more
tokens than raw shares; a delegation of one token to it is then issued no shares, and the delegation
is stored with zero shares (`delegate_after_genesis_zero_shares`).
-/

namespace CosmosSdk.Staking

open StateExcept

variable {A : Type} [LinearOrder A]

namespace Ledger

/-- `SetValidator`, on the ledger. -/
def setValidator (L : Ledger A) (v : Validator A) : Ledger A :=
  { L with validators := L.validators.insert v.operatorAddress v }

/-- `SetDelegation`, on the ledger. -/
def setDelegation (L : Ledger A) (d : Delegation A) : Ledger A :=
  { L with delegations := L.delegations.insert (d.delegatorAddress, d.validatorAddress) d.shares }

/-- `SetRedelegation`, on the ledger. -/
def setRedelegation (L : Ledger A) (red : Redelegation A) : Ledger A :=
  let key := (red.delegatorAddress, red.validatorSrcAddress, red.validatorDstAddress)
  { L with redelegations := L.redelegations.insert key red.entries }

end Ledger

/-- The ledger that the records of a genesis state leave when `InitGenesis` writes them over `L`. -/
def GenesisState.writeLedger (g : GenesisState A) (L : Ledger A) : Ledger A :=
  g.redelegations.foldl Ledger.setRedelegation
    (g.delegations.foldl Ledger.setDelegation (g.validators.foldl Ledger.setValidator L))

/-- The ledger of a genesis state: its records written over a store without any. -/
def GenesisState.ledger (g : GenesisState A) : Ledger A := g.writeLedger ⟨∅, ∅, ∅⟩

namespace Keeper

variable {ε : Type} (k : Keeper A ε) {s s' : State A ε}

theorem initGenesisValidator_ledger {ctx : Ctx} {exported : Bool} {v : Validator A} {u : Unit}
    (h : k.initGenesisValidator ctx exported v s = .ok (u, s')) :
    s'.store.ledger = s.store.ledger.setValidator v := by
  obtain ⟨_, s₁, h₁, h⟩ := bind_eq_ok.1 h
  rw [setValidator_eq_ok] at h₁
  subst h₁
  exact ((keepsLedger_setValidatorByConsAddr v).bind fun _ =>
    (keepsLedger_setValidatorByPowerIndex v).bind fun _ =>
      (Guarantees.ite (fun _ => keepsLedger_onRest _) fun _ => Guarantees.pure _).bind fun _ =>
        Guarantees.ite (fun _ => keepsLedger_insertValidatorQueue v) fun _ => Guarantees.pure _)
    _ _ _ h

theorem initGenesisDelegation_ledger {ctx : Ctx} {exported : Bool} {d : Delegation A} {u : Unit}
    (h : k.initGenesisDelegation ctx exported d s = .ok (u, s')) :
    s'.store.ledger = s.store.ledger.setDelegation d := by
  have hhook : ∀ f : Store A → StateT ε (Except Panic) Unit,
      Guarantees SameLedger (if !exported then onRest f else pure ()) := fun _ =>
    Guarantees.ite (fun _ => keepsLedger_onRest _) fun _ => Guarantees.pure _
  obtain ⟨_, s₁, e₁, h⟩ := (hhook _).run_bind h
  obtain ⟨_, s₂, h₂, h⟩ := bind_eq_ok.1 h
  rw [setDelegation_eq_ok] at h₂
  subst h₂
  rw [hhook _ _ _ _ h, ← e₁]
  rfl

omit [LinearOrder A] in
theorem keepsLedger_setParams (params : Params) : Guarantees SameLedger (setParams (A := A) (ε := ε) params) :=
  keepsLedger_modifyStore fun _ => rfl

theorem keepsLedger_initGenesisUnbondingDelegation (ubd : UnbondingDelegation A) :
    Guarantees SameLedger (initGenesisUnbondingDelegation (ε := ε) ubd) :=
  (keepsLedger_setUnbondingDelegation ubd).bind fun _ =>
    Guarantees.forM fun _ _ => keepsLedger_insertUBDQueue _ _

theorem initGenesisRedelegation_ledger {red : Redelegation A} {u : Unit}
    (h : initGenesisRedelegation red s = .ok (u, s')) :
    s'.store.ledger = s.store.ledger.setRedelegation red := by
  obtain ⟨_, s₁, h₁, h⟩ := bind_eq_ok.1 h
  rw [setRedelegation_eq_ok] at h₁
  subst h₁
  exact Guarantees.forM (fun _ _ => keepsLedger_insertRedelegationQueue _ _) _ _ _ h

theorem keepsLedger_initGenesisLastValidatorPower (lv : LastValidatorPower A) :
    Guarantees SameLedger (initGenesisLastValidatorPower (ε := ε) lv) := by
  refine (keepsLedger_setLastValidatorPower _ _).bind fun _ =>
    (keepsLedger_getValidator _).bind fun found => ?_
  cases found with
  | none => exact Guarantees.throw _
  | some validator => exact (Guarantees.lift _).bind fun _ => Guarantees.pure _

omit [LinearOrder A] in
/-- A loop of `InitGenesis` whose every iteration writes one record by `g` writes them all, in
order. -/
theorem forM_ledger {α : Type} {l : List α} {f : α → KeeperM A ε PUnit} (g : Ledger A → α → Ledger A)
    (hf : ∀ a s s' u, f a s = .ok (u, s') → s'.store.ledger = g s.store.ledger a) {u : PUnit}
    (h : l.forM f s = .ok (u, s')) : s'.store.ledger = l.foldl g s.store.ledger :=
  (forM_chain h).foldl (fun s => s.store.ledger) g fun a _ _ ⟨_, hstep⟩ => hf a _ _ _ hstep

/-- `InitGenesis` leaves an accounted ledger when the genesis records, written over the ledger it
starts from, are accounted. -/
theorem initGenesis_sharesInv {ctx : Ctx} {g : GenesisState A} {updates : List (ValidatorUpdate A)}
    (hg : (g.writeLedger s.store.ledger).SharesInv) (h : k.initGenesis ctx g s = .ok (updates, s')) :
    s'.store.ledger.SharesInv := by
  unfold initGenesis at h
  obtain ⟨_, s₁, e₁, h⟩ := (keepsLedger_setPool g.pool).run_bind h
  obtain ⟨_, s₂, e₂, h⟩ := (keepsLedger_setParams g.params).run_bind h
  obtain ⟨_, s₃, e₃, h⟩ := (keepsLedger_setLastTotalPower g.lastTotalPower).run_bind h
  obtain ⟨_, s₄, h₄, h⟩ := bind_eq_ok.1 h
  obtain ⟨_, s₅, h₅, h⟩ := bind_eq_ok.1 h
  obtain ⟨_, s₆, e₆, h⟩ := (Guarantees.forM fun ubd _ =>
    keepsLedger_initGenesisUnbondingDelegation ubd).run_bind h
  obtain ⟨_, s₇, h₇, h⟩ := bind_eq_ok.1 h
  have hwritten : s₇.store.ledger = g.writeLedger s.store.ledger := by
    rw [forM_ledger _ (fun _ _ _ _ => initGenesisRedelegation_ledger) h₇, e₆,
      forM_ledger _ (fun _ _ _ _ => initGenesisDelegation_ledger k) h₅,
      forM_ledger _ (fun _ _ _ _ => initGenesisValidator_ledger k) h₄, e₃, e₂, e₁]
    rfl
  rw [← hwritten] at hg
  split at h
  · exact KeepsShares.of_keepsLedger
      (Guarantees.mapM fun lv _ => keepsLedger_initGenesisLastValidatorPower lv) _ _ _ hg h
  · exact applyAndReturnValidatorSetUpdates_keepsShares k _ s₇ updates s' hg h

end Keeper

/-- From the state that `InitGenesis` writes on a store without records, for a genesis state whose
records are accounted, every reachable state is accounted: each validator's shares are those of
the delegations to it, each delegation holds positive shares in a stored validator, and a validator
is removed only without delegated shares. -/
theorem sharesAccounted_of_initGenesis [OrderBot A] {ε : Type} {k : Keeper A ε} {ctx : Ctx}
    {g : GenesisState A} {s s₀ s' : State A ε} {updates : List (ValidatorUpdate A)}
    (hg : g.ledger.SharesInv) (hempty : s.store.ledger = ⟨∅, ∅, ∅⟩)
    (hinit : k.initGenesis ctx g s = .ok (updates, s₀)) (hs : Reachable k s₀ s') :
    SharesAccounted k s' :=
  sharesAccounted_of_reachable (Keeper.initGenesis_sharesInv k (hempty ▸ hg) hinit) hs

/-! ### A chain from genesis -/

/-- A keeper without hooks whose bank always pays. -/
def payingKeeper : Keeper Nat Unit :=
  ⟨⟨fun _ _ _ _ => pure none, fun _ _ _ _ => pure none⟩, StakingHooks.nil⟩

/-- The state `InitGenesis` starts from: no records, and a pool and parameters that it overwrites
first. -/
def blankState : State Nat Unit := ⟨Store.genesis ⟨0, 0⟩ ⟨0, 0, 0, ""⟩, ()⟩

/-- `InitGenesis` of `g` on the blank state, then `msg` delivered in the first block. -/
def genesisThenDeliver (g : GenesisState Nat) (msg : Msg Nat) :
    Except Panic (Except Error Unit × State Nat Unit) :=
  (payingKeeper.initGenesis ⟨0, 0⟩ g blankState).bind fun r => payingKeeper.handler ⟨1, 0⟩ msg r.2

/-- A validator of 10 tokens at the exchange rate of one. -/
def sampleValidator : Validator Nat :=
  { Validator.new 1 1 ⟨"validator", "", "", ""⟩ with
    tokens := 10, delegatorShares := Dec.newDecFromInt 10 }

/-- A genesis state whose one validator is delegated to by its operator alone. -/
def sampleGenesis : GenesisState Nat where
  pool := ⟨10, 0⟩
  params := ⟨1814400000000000, 100, 7, "stake"⟩
  lastTotalPower := 0
  lastValidatorPowers := []
  validators := [sampleValidator]
  delegations := [⟨1, 1, Dec.newDecFromInt 10⟩]
  unbondingDelegations := []
  redelegations := []
  exported := false

/-- The ledger of a genesis state with one validator, delegated to by its operator with all of its
shares, is accounted when the validator's tokens lie between zero and its positive shares. -/
theorem GenesisState.ledger_sharesInv_of_single {g : GenesisState A} {v : Validator A}
    (hv : g.validators = [v])
    (hd : g.delegations = [⟨v.operatorAddress, v.operatorAddress, v.delegatorShares⟩])
    (hred : g.redelegations = []) (hpos : 0 < v.delegatorShares.raw) (hnonneg : 0 ≤ v.tokens)
    (hle : v.tokens ≤ v.delegatorShares.raw) : g.ledger.SharesInv := by
  have hL : g.ledger = ⟨Finmap.singleton v.operatorAddress v,
      Finmap.singleton (v.operatorAddress, v.operatorAddress) v.delegatorShares, ∅⟩ := by
    rw [GenesisState.ledger, GenesisState.writeLedger, hv, hd, hred]
    rfl
  have hsum : g.ledger.delegatedShares v.operatorAddress = v.delegatorShares.raw := by
    rw [hL]
    simp [Ledger.delegatedShares, Finmap.sumBy, Finmap.lookup_singleton_eq]
  -- the validator and its delegation, written over the empty ledger
  refine (Store.genesis_sharesInv (A := A) ⟨0, 0⟩ g.params).of_update v.operatorAddress
    (fun b hb => ?_) (fun key hk => ?_) (by rw [hL]; rfl) (fun v' hv' => ?_) (fun key d hk hd => ?_)
  · rw [hL]
    exact Finmap.lookup_eq_none.2 fun hm => hb ((Finmap.mem_singleton _ _ _).1 hm)
  · rw [hL]
    exact Finmap.lookup_eq_none.2 fun hm => hk (by rw [(Finmap.mem_singleton _ _ _).1 hm])
  · rw [hL, Finmap.lookup_singleton_eq, Option.some.injEq] at hv'
    subst hv'
    exact ⟨rfl, hsum.symm, hnonneg, hle⟩
  · rw [hL] at hd ⊢
    obtain rfl := (Finmap.mem_singleton _ _ _).1 (Finmap.mem_of_lookup_eq_some hd)
    rw [Finmap.lookup_singleton_eq, Option.some.injEq] at hd
    subst hd
    exact ⟨hpos, by simp [Finmap.lookup_singleton_eq]⟩

theorem sampleGenesis_sharesInv : sampleGenesis.ledger.SharesInv :=
  GenesisState.ledger_sharesInv_of_single rfl rfl rfl (by decide) (by decide) (by decide)

/-- After `InitGenesis` of `sampleGenesis`, a second delegator delegates 5 tokens, and the state it
reaches is accounted. -/
theorem sharesAccounted_of_initGenesis_sample :
    ∃ updates s₀ s, sampleGenesis.ledger.SharesInv ∧ blankState.store.ledger = ⟨∅, ∅, ∅⟩ ∧
      payingKeeper.initGenesis ⟨0, 0⟩ sampleGenesis blankState = .ok (updates, s₀) ∧
      Reachable payingKeeper s₀ s ∧ SharesAccounted payingKeeper s := by
  obtain ⟨⟨res, s⟩, hrun, hres⟩ := exists_eq_ok_of_checkOk (by decide +kernel :
    checkOk (genesisThenDeliver sampleGenesis (.delegate 2 1 ⟨"stake", 5⟩)) (·.1.isOk) = true)
  obtain ⟨⟨updates, s₀⟩, hinit, hmsg⟩ := except_bind_eq_ok.1 hrun
  obtain rfl : res = .ok () := eq_ok_unit_of_isOk hres
  have hs : Reachable payingKeeper s₀ s := .step .init (.msg _ _ (by decide) hmsg)
  exact ⟨updates, s₀, s, sampleGenesis_sharesInv, rfl, hinit, hs,
    sharesAccounted_of_initGenesis sampleGenesis_sharesInv rfl hinit hs⟩

/-- A genesis state that `ValidateGenesis` accepts, whose one validator holds 2 tokens and one raw
unit of shares, delegated by its operator. -/
def shortSharesGenesis : GenesisState Nat :=
  { sampleGenesis with
    pool := ⟨2, 0⟩
    validators := [{ sampleValidator with tokens := 2, delegatorShares := ⟨1⟩ }]
    delegations := [⟨1, 1, ⟨1⟩⟩] }

/-- After `InitGenesis` of `shortSharesGenesis`, a delegation of one token passes `ValidateBasic` and
succeeds, and is issued `1 · 1 / 2` truncated, no shares: the delegation is stored without shares,
and the state it reaches is not accounted. -/
theorem delegate_after_genesis_zero_shares :
    validateGenesis shortSharesGenesis = none ∧ ∃ updates s₀ s,
      payingKeeper.initGenesis ⟨0, 0⟩ shortSharesGenesis blankState = .ok (updates, s₀) ∧
      Reachable payingKeeper s₀ s ∧ s.store.delegations.lookup (2, 1) = some ⟨0⟩ ∧
      ¬ SharesAccounted payingKeeper s := by
  obtain ⟨⟨res, s⟩, hrun, hres⟩ := exists_eq_ok_of_checkOk (by decide +kernel :
    checkOk (genesisThenDeliver shortSharesGenesis (.delegate 2 1 ⟨"stake", 1⟩))
      (fun r => r.1.isOk && decide (r.2.store.delegations.lookup (2, 1) = some ⟨0⟩)) = true)
  obtain ⟨⟨updates, s₀⟩, hinit, hmsg⟩ := except_bind_eq_ok.1 hrun
  simp only [Bool.and_eq_true, decide_eq_true_eq] at hres
  obtain rfl : res = .ok () := eq_ok_unit_of_isOk hres.1
  refine ⟨by decide, updates, s₀, s, hinit, .step .init (.msg _ _ (by decide) hmsg), hres.2,
    fun hacc => ?_⟩
  exact lt_irrefl _ (hacc.2.1 _ _ hres.2).1

end CosmosSdk.Staking
