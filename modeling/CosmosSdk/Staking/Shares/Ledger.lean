import CosmosSdk.Staking.Keeper
import CosmosSdk.Lib.FinmapSum

/-!
# The share ledger

The records that the share accounting reads: validators, delegations and redelegations.
`SharesInv` is the accounting that `DelegatorSharesInvariant` and `PositiveDelegationInvariant` of
`simulation/invariants.go` check.  Each validator's `DelegatorShares` are the sum of the shares of
the delegations to it.  Every delegation is positive and refers to a stored validator.  It also keeps
the facts the messages need in order to preserve this: records are stored under their operator
address, tokens lie between zero and the raw shares, and a redelegation runs between two validators.

Every write of the keeper is one of a few ledger updates.  A validator may be written with its
shares unchanged.  A delegation may be written together with its validator's new shares.  A
validator without shares may be removed.  A redelegation record may be written or dropped.
`SharesInv.of_update` is the one argument behind all of them.
-/

namespace CosmosSdk.Staking

open StateExcept

variable {A : Type} [LinearOrder A]

/-- The records the share accounting reads: validators, delegations and redelegations. -/
structure Ledger (A : Type) where
  validators : MemDB A (Validator A)
  delegations : MemDB (A × A) Dec
  redelegations : MemDB (A × A × A) (List RedelegationEntry)

/-- The ledger of a store. -/
def Store.ledger (st : Store A) : Ledger A := ⟨st.validators, st.delegations, st.redelegations⟩

omit [LinearOrder A] in
@[simp] theorem Store.ledger_validators (st : Store A) : st.ledger.validators = st.validators := rfl

omit [LinearOrder A] in
@[simp] theorem Store.ledger_delegations (st : Store A) : st.ledger.delegations = st.delegations := rfl

omit [LinearOrder A] in
@[simp] theorem Store.ledger_redelegations (st : Store A) :
    st.ledger.redelegations = st.redelegations := rfl

omit [LinearOrder A] in
theorem Store.validators_eq_of_ledger {st : Store A} {L : Ledger A} (h : st.ledger = L) :
    st.validators = L.validators :=
  congrArg Ledger.validators h

omit [LinearOrder A] in
theorem Store.delegations_eq_of_ledger {st : Store A} {L : Ledger A} (h : st.ledger = L) :
    st.delegations = L.delegations :=
  congrArg Ledger.delegations h

omit [LinearOrder A] in
theorem Store.redelegations_eq_of_ledger {st : Store A} {L : Ledger A} (h : st.ledger = L) :
    st.redelegations = L.redelegations :=
  congrArg Ledger.redelegations h

namespace Ledger

/-- The shares that the stored delegations hold in the validator `valAddr`. -/
def delegatedShares (L : Ledger A) (valAddr : A) : Int :=
  L.delegations.sumBy fun key shares => if key.2 = valAddr then shares.raw else 0

/-- The share accounting of the staking store.  Besides the equation of each validator's shares with
its delegations, it keeps what the messages need to preserve it: each validator is stored under its
operator address, has no more tokens than raw shares (so that a delegation is issued shares), and the
redelegations run between two validators and created nonnegative shares. -/
structure SharesInv (L : Ledger A) : Prop where
  operator_eq {a : A} {v : Validator A} : L.validators.lookup a = some v → v.operatorAddress = a
  shares_eq {a : A} {v : Validator A} :
    L.validators.lookup a = some v → v.delegatorShares.raw = L.delegatedShares a
  tokens_nonneg {a : A} {v : Validator A} : L.validators.lookup a = some v → 0 ≤ v.tokens
  tokens_le_shares {a : A} {v : Validator A} :
    L.validators.lookup a = some v → v.tokens ≤ v.delegatorShares.raw
  delegation_pos {key : A × A} {shares : Dec} : L.delegations.lookup key = some shares → 0 < shares.raw
  delegation_validator {key : A × A} {shares : Dec} :
    L.delegations.lookup key = some shares → (L.validators.lookup key.2).isSome
  redelegation_ne {key : A × A × A} {entries : List RedelegationEntry} :
    L.redelegations.lookup key = some entries → key.2.1 ≠ key.2.2
  sharesDst_nonneg {key : A × A × A} {entries : List RedelegationEntry} :
    L.redelegations.lookup key = some entries → ∀ e ∈ entries, 0 ≤ e.sharesDst.raw

/-! ### Delegated shares -/

/-- The summand of one delegation in `delegatedShares`. -/
def delegationShares (L : Ledger A) (key : A × A) : Int :=
  ((L.delegations.lookup key).map Dec.raw).getD 0

theorem delegatedShares_congr {L L' : Ledger A} {a : A}
    (h : ∀ key : A × A, key.2 = a → L'.delegations.lookup key = L.delegations.lookup key) :
    L'.delegatedShares a = L.delegatedShares a := by
  apply Finmap.sumBy_congr
  intro key
  by_cases hk : key.2 = a
  · simp [Finmap.entryValue, h key hk]
  · have hzero : ∀ o : Option Dec, (o.map fun _ => (0 : Int)).getD 0 = 0 := fun o => by cases o <;> rfl
    simp [Finmap.entryValue, hk, hzero]

/-- Changing one delegation changes the delegated shares of its validator by the difference. -/
theorem delegatedShares_of_agree {L L' : Ledger A} (key : A × A)
    (h : ∀ k, k ≠ key → L'.delegations.lookup k = L.delegations.lookup k) :
    L'.delegatedShares key.2 = L.delegatedShares key.2 - L.delegationShares key + L'.delegationShares key := by
  unfold delegatedShares
  rw [Finmap.sumBy_of_agree key h]
  cases h₁ : L.delegations.lookup key <;> cases h₂ : L'.delegations.lookup key <;>
    simp [Finmap.entryValue, delegationShares, h₁, h₂]

theorem delegatedShares_eq_zero {L : Ledger A} {a : A}
    (h : ∀ key : A × A, key.2 = a → L.delegations.lookup key = none) : L.delegatedShares a = 0 := by
  apply Finset.sum_eq_zero
  intro key _
  by_cases hk : key.2 = a
  · simp [h key hk]
  · cases L.delegations.lookup key <;> simp [hk]

section Inv

variable {L : Ledger A} (hinv : L.SharesInv)
include hinv

/-- Every summand of `delegatedShares` is nonnegative. -/
theorem SharesInv.summand_nonneg (a : A) (key : A × A) (d : Dec)
    (hd : L.delegations.lookup key = some d) : 0 ≤ if key.2 = a then d.raw else 0 := by
  split
  · exact (hinv.delegation_pos hd).le
  · exact le_rfl

theorem SharesInv.delegationShares_le (key : A × A) :
    L.delegationShares key ≤ L.delegatedShares key.2 := by
  have h := Finmap.entryValue_le_sumBy (hinv.summand_nonneg key.2) key
  unfold delegatedShares
  cases hk : L.delegations.lookup key <;> simp_all [Finmap.entryValue, delegationShares]

theorem SharesInv.delegatedShares_nonneg (a : A) : 0 ≤ L.delegatedShares a :=
  Finset.sum_nonneg fun key _ => Finmap.entryValue_nonneg (hinv.summand_nonneg a) key

/-- A validator without delegated shares has no delegation. -/
theorem SharesInv.delegation_eq_none {a : A} (h : L.delegatedShares a = 0) {key : A × A}
    (hkey : key.2 = a) : L.delegations.lookup key = none := by
  have hzero := Finmap.entryValue_eq_zero_of_sumBy_eq_zero (hinv.summand_nonneg a) h key
  cases hk : L.delegations.lookup key with
  | none => rfl
  | some d =>
    have := hinv.delegation_pos hk
    simp [Finmap.entryValue, hk, hkey] at hzero
    omega

/-- A validator that is not stored has no delegations. -/
theorem SharesInv.delegation_eq_none_of_not_stored {a : A} (hnone : L.validators.lookup a = none)
    {key : A × A} (hkey : key.2 = a) : L.delegations.lookup key = none := by
  cases hd : L.delegations.lookup key with
  | none => rfl
  | some d =>
    have := hinv.delegation_validator hd
    rw [hkey, hnone] at this
    cases this

theorem SharesInv.delegatedShares_of_not_stored {a : A} (hnone : L.validators.lookup a = none) :
    L.delegatedShares a = 0 :=
  delegatedShares_eq_zero fun _ hkey => hinv.delegation_eq_none_of_not_stored hnone hkey

/-- A validator found through an index is stored under its operator address. -/
theorem SharesInv.lookup_of_bind {o : Option A} {v : Validator A}
    (h : o.bind L.validators.lookup = some v) : L.validators.lookup v.operatorAddress = some v := by
  obtain ⟨a, -, ha⟩ := Option.bind_eq_some_iff.1 h
  rw [hinv.operator_eq ha]
  exact ha

/-- A ledger that differs from an accounted one only at the validator `a` and at delegations to it
is accounted when its records at `a` are. -/
theorem SharesInv.of_update {L' : Ledger A} (a : A)
    (hval : ∀ b, b ≠ a → L'.validators.lookup b = L.validators.lookup b)
    (hdel : ∀ key : A × A, key.2 ≠ a → L'.delegations.lookup key = L.delegations.lookup key)
    (hred : L'.redelegations = L.redelegations)
    (hval_a : ∀ v, L'.validators.lookup a = some v → v.operatorAddress = a ∧
      v.delegatorShares.raw = L'.delegatedShares a ∧ 0 ≤ v.tokens ∧ v.tokens ≤ v.delegatorShares.raw)
    (hdel_a : ∀ (key : A × A) shares, key.2 = a → L'.delegations.lookup key = some shares →
      0 < shares.raw ∧ (L'.validators.lookup a).isSome) :
    L'.SharesInv := by
  -- off `a` every record, and so every delegated sum, is the old one
  have hsum : ∀ b, b ≠ a → L'.delegatedShares b = L.delegatedShares b := fun b hb =>
    delegatedShares_congr fun key hk => hdel key (hk ▸ hb)
  refine ⟨fun {b v} hv => ?_, fun {b v} hv => ?_, fun {b v} hv => ?_, fun {b v} hv => ?_,
    fun {key d} hd => ?_, fun {key d} hd => ?_, fun {key es} hes => ?_, fun {key es} hes => ?_⟩
  · by_cases hb : b = a
    · exact hb ▸ (hval_a v (hb ▸ hv)).1
    · exact hinv.operator_eq (hval b hb ▸ hv)
  · by_cases hb : b = a
    · exact hb ▸ (hval_a v (hb ▸ hv)).2.1
    · rw [hsum b hb]
      exact hinv.shares_eq (hval b hb ▸ hv)
  · by_cases hb : b = a
    · exact (hval_a v (hb ▸ hv)).2.2.1
    · exact hinv.tokens_nonneg (hval b hb ▸ hv)
  · by_cases hb : b = a
    · exact (hval_a v (hb ▸ hv)).2.2.2
    · exact hinv.tokens_le_shares (hval b hb ▸ hv)
  · by_cases hk : key.2 = a
    · exact (hdel_a key d hk hd).1
    · exact hinv.delegation_pos (hdel key hk ▸ hd)
  · by_cases hk : key.2 = a
    · exact hk ▸ (hdel_a key d hk hd).2
    · rw [hval key.2 hk]
      exact hinv.delegation_validator (hdel key hk ▸ hd)
  · exact hinv.redelegation_ne (hred ▸ hes)
  · exact hinv.sharesDst_nonneg (hred ▸ hes)

/-- Writing a stored validator back with its shares, and at most its tokens, keeps the accounting:
a change of status, jailing, a new description or commission, or tokens slashed away. -/
theorem SharesInv.setValidator {v₀ v : Validator A}
    (hv₀ : L.validators.lookup v.operatorAddress = some v₀)
    (hshares : v.delegatorShares = v₀.delegatorShares) (hnonneg : 0 ≤ v.tokens)
    (hle : v.tokens ≤ v₀.tokens) :
    ({ L with validators := L.validators.insert v.operatorAddress v } : Ledger A).SharesInv := by
  refine hinv.of_update v.operatorAddress (fun b hb => Finmap.lookup_insert_of_ne _ hb)
    (fun _ _ => rfl) rfl ?_ ?_
  · intro w hw
    rw [Finmap.lookup_insert, Option.some.injEq] at hw
    subst hw
    refine ⟨rfl, hshares ▸ hinv.shares_eq hv₀, hnonneg, ?_⟩
    rw [hshares]
    exact hle.trans (hinv.tokens_le_shares hv₀)
  · intro key d _ hd
    exact ⟨hinv.delegation_pos hd, by simp [Finmap.lookup_insert]⟩

/-- Writing back a stored validator with its shares and tokens keeps the accounting. -/
theorem SharesInv.setValidator_same {v₀ v : Validator A}
    (hv₀ : L.validators.lookup v.operatorAddress = some v₀)
    (hshares : v.delegatorShares = v₀.delegatorShares) (htokens : v.tokens = v₀.tokens) :
    ({ L with validators := L.validators.insert v.operatorAddress v } : Ledger A).SharesInv :=
  hinv.setValidator hv₀ hshares (htokens ▸ hinv.tokens_nonneg hv₀) htokens.le

/-- A new validator without tokens or shares keeps the accounting. -/
theorem SharesInv.setValidator_new {v : Validator A}
    (hnone : L.validators.lookup v.operatorAddress = none) (hshares : v.delegatorShares.raw = 0)
    (htokens : v.tokens = 0) :
    ({ L with validators := L.validators.insert v.operatorAddress v } : Ledger A).SharesInv := by
  refine hinv.of_update v.operatorAddress (fun b hb => Finmap.lookup_insert_of_ne _ hb)
    (fun _ _ => rfl) rfl ?_ ?_
  · intro w hw
    rw [Finmap.lookup_insert, Option.some.injEq] at hw
    subst hw
    exact ⟨rfl, hshares.trans (hinv.delegatedShares_of_not_stored hnone).symm, by omega, by omega⟩
  · intro key d hk hd
    rw [hinv.delegation_eq_none_of_not_stored hnone hk] at hd
    cases hd

/-- Changing one delegation and writing its validator with shares changed by as much keeps the
accounting: `Delegate` and `unbond`. -/
theorem SharesInv.update_delegation {L' : Ledger A} (key : A × A) {v v' : Validator A}
    (hv : L.validators.lookup key.2 = some v)
    (hval : L'.validators = L.validators.insert key.2 v')
    (hdel : ∀ k, k ≠ key → L'.delegations.lookup k = L.delegations.lookup k)
    (hred : L'.redelegations = L.redelegations) (hop : v'.operatorAddress = key.2)
    (hshares : v'.delegatorShares.raw =
      v.delegatorShares.raw - L.delegationShares key + L'.delegationShares key)
    (hpos : ∀ shares, L'.delegations.lookup key = some shares → 0 < shares.raw)
    (hnonneg : 0 ≤ v'.tokens) (hle : v'.tokens ≤ v'.delegatorShares.raw) : L'.SharesInv := by
  refine hinv.of_update key.2 (fun b hb => by rw [hval, Finmap.lookup_insert_of_ne _ hb])
    (fun k hk => hdel k fun h => hk (h ▸ rfl)) hred ?_ ?_
  · intro w hw
    rw [hval, Finmap.lookup_insert, Option.some.injEq] at hw
    subst hw
    refine ⟨hop, ?_, hnonneg, hle⟩
    rw [hshares, delegatedShares_of_agree key hdel, hinv.shares_eq hv]
  · intro k d hk hd
    refine ⟨?_, by simp [hval, Finmap.lookup_insert]⟩
    by_cases hkey : k = key
    · exact hpos d (hkey ▸ hd)
    · exact hinv.delegation_pos (hdel k hkey ▸ hd)

/-- `SetDelegation` of positive shares, with the validator's shares changed by as much. -/
theorem SharesInv.insert_delegation {L' : Ledger A} (key : A × A) (d : Dec) {v v' : Validator A}
    (hv : L.validators.lookup key.2 = some v)
    (hval : L'.validators = L.validators.insert key.2 v')
    (hdel : L'.delegations = L.delegations.insert key d)
    (hred : L'.redelegations = L.redelegations) (hop : v'.operatorAddress = key.2)
    (hshares : v'.delegatorShares.raw = v.delegatorShares.raw - L.delegationShares key + d.raw)
    (hpos : 0 < d.raw) (hnonneg : 0 ≤ v'.tokens) (hle : v'.tokens ≤ v'.delegatorShares.raw) :
    L'.SharesInv := by
  have hlookup : L'.delegations.lookup key = some d := by rw [hdel, Finmap.lookup_insert]
  refine hinv.update_delegation key hv hval (fun k hk => by rw [hdel, Finmap.lookup_insert_of_ne _ hk])
    hred hop ?_ ?_ hnonneg hle
  · rw [hshares]
    unfold delegationShares
    rw [hlookup]
    rfl
  · intro shares hs
    rw [hlookup, Option.some.injEq] at hs
    exact hs ▸ hpos

/-- `RemoveDelegation`, with the validator's shares lowered by the delegation's. -/
theorem SharesInv.erase_delegation {L' : Ledger A} (key : A × A) {v v' : Validator A}
    (hv : L.validators.lookup key.2 = some v)
    (hval : L'.validators = L.validators.insert key.2 v')
    (hdel : L'.delegations = L.delegations.erase key)
    (hred : L'.redelegations = L.redelegations) (hop : v'.operatorAddress = key.2)
    (hshares : v'.delegatorShares.raw = v.delegatorShares.raw - L.delegationShares key)
    (hnonneg : 0 ≤ v'.tokens) (hle : v'.tokens ≤ v'.delegatorShares.raw) : L'.SharesInv := by
  have hlookup : L'.delegations.lookup key = none := by rw [hdel, Finmap.lookup_erase]
  refine hinv.update_delegation key hv hval (fun k hk => by rw [hdel, Finmap.lookup_erase_ne hk])
    hred hop ?_ ?_ hnonneg hle
  · rw [hshares]
    unfold delegationShares
    rw [hlookup, Option.map_none, Option.getD_none, add_zero]
  · intro shares hs
    rw [hlookup] at hs
    cases hs

/-- A validator without shares may go. -/
theorem SharesInv.removeValidator {a : A} {v : Validator A} (hv : L.validators.lookup a = some v)
    (hzero : v.delegatorShares.raw = 0) :
    ({ L with validators := L.validators.erase a } : Ledger A).SharesInv := by
  have hnodel : L.delegatedShares a = 0 := hinv.shares_eq hv ▸ hzero
  refine hinv.of_update a (fun b hb => Finmap.lookup_erase_ne hb) (fun _ _ => rfl) rfl ?_ ?_
  · intro w hw
    rw [Finmap.lookup_erase] at hw
    cases hw
  · intro key d hk hd
    rw [hinv.delegation_eq_none hnodel hk] at hd
    cases hd

theorem SharesInv.setRedelegation {key : A × A × A} {entries : List RedelegationEntry}
    (hne : key.2.1 ≠ key.2.2) (hentries : ∀ e ∈ entries, 0 ≤ e.sharesDst.raw) :
    ({ L with redelegations := L.redelegations.insert key entries } : Ledger A).SharesInv where
  __ := hinv
  redelegation_ne {k es} hes := by
    by_cases hk : k = key
    · exact hk ▸ hne
    · exact hinv.redelegation_ne ((Finmap.lookup_insert_of_ne _ hk).symm.trans hes)
  sharesDst_nonneg {k es} hes := by
    by_cases hk : k = key
    · subst hk
      rw [Finmap.lookup_insert, Option.some.injEq] at hes
      exact hes ▸ hentries
    · exact hinv.sharesDst_nonneg ((Finmap.lookup_insert_of_ne _ hk).symm.trans hes)

theorem SharesInv.removeRedelegation (key : A × A × A) :
    ({ L with redelegations := L.redelegations.erase key } : Ledger A).SharesInv where
  __ := hinv
  redelegation_ne {k es} hes := by
    by_cases hk : k = key
    · rw [hk, Finmap.lookup_erase] at hes
      cases hes
    · exact hinv.redelegation_ne ((Finmap.lookup_erase_ne hk).symm.trans hes)
  sharesDst_nonneg {k es} hes := by
    by_cases hk : k = key
    · rw [hk, Finmap.lookup_erase] at hes
      cases hes
    · exact hinv.sharesDst_nonneg ((Finmap.lookup_erase_ne hk).symm.trans hes)

end Inv

end Ledger

end CosmosSdk.Staking
