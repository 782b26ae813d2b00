import CosmosSdk.Slashing.Keeper
import CosmosSdk.Staking.Shares.Delegation

/-!
# Tombstones

`handleDoubleSign` tombstones the signing info of the consensus address it punishes, and
`handleMsgUnjail` refuses every validator whose signing info is tombstoned, changing nothing
(`handleMsgUnjail_tombstoned`).

The tombstone is kept under the consensus address, apart from the validator.  Removing the validator
keeps it: `AfterValidatorRemoved` deletes only the address-key relation.  `MsgCreateValidator`
checks the operator and the consensus address against the stored validators only.  So once a
tombstoned validator is removed, a validator created under the same key is stored unjailed, over the
tombstoned signing info (`createValidator_after_removal_tombstoned`).  `AfterValidatorBonded` keeps
that signing info when the validator bonds, and `handleDoubleSign` then ignores every evidence
against it.
-/

namespace CosmosSdk

open StateExcept

namespace Staking.Keeper

variable {A ε : Type} [LinearOrder A] (k : Keeper A ε) {s s' : State A ε}

/-- A `MsgCreateValidator` that succeeds stores an unjailed validator under its operator address, with
the message's key. -/
theorem handleMsgCreateValidator_validator {ctx : Ctx} {description : Description}
    {commission : CommissionMsg} {minSelfDelegation : Int} {delegatorAddress validatorAddress pubKey : A}
    {value : Coin} (h : k.handleMsgCreateValidator ctx description commission minSelfDelegation
      delegatorAddress validatorAddress pubKey value s = .ok (.ok (), s')) :
    ∃ v, s'.store.validators.lookup validatorAddress = some v ∧ v.consAddress = pubKey ∧
      v.jailed = false := by
  rcases k.handleMsgCreateValidator_eq_ok h with ⟨-, hr⟩ | ⟨v, rfl, s₁, result, -, -, hdel, hr⟩
  · exact absurd rfl hr
  cases result with
  | error _ => cases hr
  | ok _ => exact delegate_validator k hdel

end Staking.Keeper

namespace Slashing

open Staking (Ctx Validator BankKeeper StakingHooks Description CommissionMsg Coin)

variable {A ε : Type} [LinearOrder A]

/-! ### Unjailing -/

section Unjail

variable {s s' : Staking.State A (State A ε)}

/-- `MsgUnjail` for a validator whose signing info is tombstoned fails and changes nothing. -/
theorem handleMsgUnjail_tombstoned {ctx : Ctx} {validatorAddr : A} {v : Validator A}
    {info : ValidatorSigningInfo} {r : Except Error Unit}
    (hv : s.store.validators.lookup validatorAddr = some v)
    (hinfo : s.rest.store.getValidatorSigningInfo v.consAddress = some info)
    (htomb : info.tombstoned = true) (h : handleMsgUnjail ctx validatorAddr s = .ok (r, s')) :
    r ≠ .ok () ∧ s' = s := by
  unfold handleMsgUnjail at h
  rw [bind_eq_ok] at h
  obtain ⟨found, s₁, h₁, h⟩ := h
  obtain ⟨hfound, rfl⟩ := Staking.Keeper.getValidator_eq_ok.1 h₁
  rw [hv] at hfound
  subst hfound
  dsimp only at h
  rw [bind_eq_ok] at h
  obtain ⟨selfDel, s₂, h₂, h⟩ := h
  obtain ⟨-, rfl⟩ := Staking.Keeper.getDelegation_eq_ok.1 h₂
  -- every check before the unjailing only reads the state
  cases selfDel with
  | none =>
    obtain ⟨rfl, rfl⟩ := pure_eq_ok.1 h
    exact ⟨by simp [errMissingSelfDelegation, newError], rfl⟩
  | some selfDel =>
  dsimp only at h
  rw [bind_eq_ok] at h
  obtain ⟨worth, s₃, h₃, h⟩ := h
  obtain ⟨-, rfl⟩ := lift_eq_ok.1 h₃
  rw [bind_eq_ok] at h
  obtain ⟨selfTokens, s₄, h₄, h⟩ := h
  obtain ⟨-, rfl⟩ := lift_eq_ok.1 h₄
  split at h
  · obtain ⟨rfl, rfl⟩ := pure_eq_ok.1 h
    exact ⟨by simp [errSelfDelegationTooLowToUnjail, newError], rfl⟩
  split at h
  · obtain ⟨rfl, rfl⟩ := pure_eq_ok.1 h
    exact ⟨by simp [errValidatorNotJailed, newError], rfl⟩
  rw [bind_eq_ok] at h
  obtain ⟨st, s₅, h₅, h⟩ := h
  obtain ⟨rfl, rfl⟩ := getSlashingStore_eq_ok.1 h₅
  rw [hinfo] at h
  dsimp only at h
  rw [if_pos htomb] at h
  obtain ⟨rfl, rfl⟩ := pure_eq_ok.1 h
  exact ⟨by simp [errValidatorJailed, newError], rfl⟩

example :
    ∃ (s s' : Staking.State Nat (State Nat Unit)) (v : Validator Nat) (info : ValidatorSigningInfo)
      (r : Except Error Unit), s.store.validators.lookup 1 = some v ∧
      s.rest.store.getValidatorSigningInfo v.consAddress = some info ∧ info.tombstoned = true ∧
      handleMsgUnjail ⟨1, 0⟩ 1 s = .ok (r, s') ∧ r ≠ .ok () ∧ s' = s := by
  -- the jailed validator 1 under the key 7 holds its minimum self-delegation, and 7 is tombstoned
  obtain ⟨r, s', hrun⟩ : ∃ r s', handleMsgUnjail ⟨1, 0⟩ 1
      (⟨⟨Finmap.singleton 1 { Validator.new 1 7 ⟨"", "", "", ""⟩ with
            jailed := true, tokens := 1, delegatorShares := ⟨10 ^ 18⟩ }, Finmap.singleton 7 1, ∅,
          Finmap.singleton (1, 1) ⟨10 ^ 18⟩, ∅, ∅, ∅, ∅, ∅, ∅, 0, ⟨0, 0⟩,
          ⟨1814400000000000, 100, 7, "stake"⟩⟩,
        ⟨⟨Finmap.singleton 7 ⟨0, 0, doubleSignJailEndTime, true, 0⟩, ∅, Finmap.singleton 7 7,
          ⟨0, 10, ⟨500000000000000000⟩, 600, ⟨0⟩, ⟨0⟩⟩⟩, ()⟩⟩ : Staking.State Nat (State Nat Unit)) =
        .ok (r, s') := ⟨_, _, rfl⟩
  refine ⟨_, s', { Validator.new 1 7 ⟨"", "", "", ""⟩ with
    jailed := true, tokens := 1, delegatorShares := ⟨10 ^ 18⟩ }, ⟨0, 0, doubleSignJailEndTime, true, 0⟩,
    r, ?hv, ?hinfo, rfl, hrun, handleMsgUnjail_tombstoned ?hv ?hinfo rfl hrun⟩
  case hv => rfl
  case hinfo => rfl

end Unjail

/-! ### Creating a validator under a tombstoned key -/

section Create

variable (bank : BankKeeper A ε) (other : StakingHooks A ε)

/-- After a validator is removed, a validator created under a tombstoned key is stored unjailed, and
its consensus address keeps the tombstoned signing info. -/
theorem createValidator_after_removal_tombstoned {s s₁ s₂ : Staking.State A (State A ε)}
    {ctx : Ctx} {operator : A} {info : ValidatorSigningInfo} {description : Description}
    {commission : CommissionMsg} {minSelfDelegation : Int} {delegatorAddress validatorAddress pubKey : A}
    {value : Coin} (hinfo : s.rest.store.getValidatorSigningInfo pubKey = some info)
    (htomb : info.tombstoned = true)
    (hremove : (appKeeper bank other).removeValidator ctx operator s = .ok ((), s₁))
    (hcreate : (appKeeper bank other).handleMsgCreateValidator ctx description commission
      minSelfDelegation delegatorAddress validatorAddress pubKey value s₁ = .ok (.ok (), s₂)) :
    ∃ v info', s₂.store.validators.lookup validatorAddress = some v ∧ v.jailed = false ∧
      s₂.rest.store.getValidatorSigningInfo v.consAddress = some info' ∧ info'.tombstoned = true := by
  obtain ⟨v, hv, hkey, hjailed⟩ := Staking.Keeper.handleMsgCreateValidator_validator _ hcreate
  -- neither the removal nor the creation touches a signing info
  have hremoved : StoreFrame s.rest s₁.rest :=
    Staking.Keeper.restRel_removeValidator _ (appKeeper_keepsRest bank other) _ _ _ _ _ hremove
  have hcreated : StoreFrame s₁.rest s₂.rest :=
    Staking.Keeper.restRel_handleMsgCreateValidator _ (appKeeper_keepsRest bank other) _ _ _ _ _ _ _ _
      _ _ _ hcreate
  refine ⟨v, info, hv, hjailed, ?_, htomb⟩
  rw [hkey]
  exact hcreated.signingInfo (hremoved.signingInfo hinfo)

theorem createValidator_after_removal_tombstoned_rejoin :
    (Staking.Msg.createValidator ⟨"validator", "", "", ""⟩ ⟨⟨0⟩, ⟨0⟩, ⟨0⟩⟩ 1 2 2 7 ⟨"stake", 100⟩ :
      Staking.Msg Nat).validateBasic = none ∧
    ∃ (s s₁ s₂ : Staking.State Nat (State Nat Unit)) (info : ValidatorSigningInfo),
      s.rest.store.getValidatorSigningInfo 7 = some info ∧ info.tombstoned = true ∧
      (appKeeper ⟨fun _ _ _ _ => pure none, fun _ _ _ _ => pure none⟩ .nil).removeValidator ⟨1, 0⟩ 1 s =
        .ok ((), s₁) ∧
      (appKeeper ⟨fun _ _ _ _ => pure none, fun _ _ _ _ => pure none⟩ .nil).handleMsgCreateValidator
        ⟨1, 0⟩ ⟨"validator", "", "", ""⟩ ⟨⟨0⟩, ⟨0⟩, ⟨0⟩⟩ 1 2 2 7 ⟨"stake", 100⟩ s₁ = .ok (.ok (), s₂) ∧
      ∃ v info', s₂.store.validators.lookup 2 = some v ∧ v.jailed = false ∧
        s₂.rest.store.getValidatorSigningInfo v.consAddress = some info' ∧ info'.tombstoned = true := by
  -- the jailed, unbonded validator 1 under the key 7, emptied after its double sign, is removed;
  -- the operator 2 then creates a validator under the key 7
  obtain ⟨s₁, s₂, hremove, hcreate⟩ : ∃ s₁ s₂,
      (appKeeper ⟨fun _ _ _ _ => pure none, fun _ _ _ _ => pure none⟩ .nil).removeValidator ⟨1, 0⟩ 1
        (⟨⟨Finmap.singleton 1 { Validator.new 1 7 ⟨"", "", "", ""⟩ with jailed := true }, Finmap.singleton 7 1,
            ∅, ∅, ∅, ∅, ∅, ∅, ∅, ∅, 0, ⟨0, 0⟩, ⟨1814400000000000, 100, 7, "stake"⟩⟩,
          ⟨⟨Finmap.singleton 7 ⟨0, 0, doubleSignJailEndTime, true, 0⟩, ∅, Finmap.singleton 7 7,
            ⟨0, 10, ⟨500000000000000000⟩, 600, ⟨0⟩, ⟨0⟩⟩⟩, ()⟩⟩ : Staking.State Nat (State Nat Unit)) =
        .ok ((), s₁) ∧
      (appKeeper ⟨fun _ _ _ _ => pure none, fun _ _ _ _ => pure none⟩ .nil).handleMsgCreateValidator
        ⟨1, 0⟩ ⟨"validator", "", "", ""⟩ ⟨⟨0⟩, ⟨0⟩, ⟨0⟩⟩ 1 2 2 7 ⟨"stake", 100⟩ s₁ = .ok (.ok (), s₂) :=
    ⟨_, _, rfl, rfl⟩
  refine ⟨by decide, _, s₁, s₂, ⟨0, 0, doubleSignJailEndTime, true, 0⟩, ?_, rfl, hremove, hcreate, ?_⟩
  · rfl
  · exact createValidator_after_removal_tombstoned _ _ rfl rfl hremove hcreate

end Create

end Slashing

end CosmosSdk
