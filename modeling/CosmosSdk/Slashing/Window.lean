import CosmosSdk.Slashing.Keeper
import CosmosSdk.Lib.RingWindow

/-!
# The downtime window

`handleValidatorSignature` keeps, for each consensus address, a window over the blocks the validator
should have signed: a ring of `SignedBlocksWindow` bits, the block at `IndexOffset` going to the slot
`IndexOffset % SignedBlocksWindow`, and `MissedBlocksCounter`, which the code moves by one when a bit
changes instead of counting the bits.

`WindowInv W st a h` ties the stored window of `a` to the missed flags `h` of the blocks since its
signing info was created or its window last started over, through `RingWindow.ringOf`: the offset
counts the flags, each slot holds the last flag of its position, and the counter is the number of
slots holding a miss.  So the counter is the number of bits set in `[0, W)` and the number of misses
among the last `min(IndexOffset, W)` blocks, and lies in `[0, W]` (`WindowInv.missedBlocksCounter_eq`).

A call keeps the invariant with one more flag, or with none after a downtime punishment; the
punishment comes exactly when `Downtime` holds (`handleValidatorSignature_window`).  A call for
another address keeps it (`handleValidatorSignature_window_of_ne`), and so does every run of calls
(`windowInv_of_run`).
-/

namespace CosmosSdk.Slashing

open RingWindow StateExcept

open Staking (Ctx BankKeeper StakingHooks)

variable {A ε : Type} [LinearOrder A]

/-- The stored window of `address` after the missed flags `h`. -/
structure WindowInv (W : Nat) (st : Store A) (address : A) (h : List Bool) : Prop where
  window : st.params.signedBlocksWindow = W
  bits (i : Nat) : i < W → st.getValidatorMissedBlockBitArray address i = (ringOf W h i).getD false
  signingInfo : ∃ info, st.getValidatorSigningInfo address = some info ∧
    info.indexOffset = h.length ∧ info.missedBlocksCounter = trueCount W (ringOf W h)

/-- The downtime condition of `handleValidatorSignature` after the missed flags `h`: past the first
window since `StartHeight`, more misses among the last `W` blocks than `W - MinSignedPerWindow`, and a
validator that is found and not jailed. -/
def Downtime (W : Nat) (minSigned : Int) (ctx : Ctx) (info : ValidatorSigningInfo) (h : List Bool)
    (st : Staking.Store A) (a : A) : Prop :=
  info.startHeight + W < ctx.height ∧ (W : Int) - minSigned < ((h.rtake W).count true : Int) ∧
    ∃ v, (st.validatorsByConsAddr.lookup a).bind st.validators.lookup = some v ∧ v.jailed = false

/-! ### The invariant on a store -/

section Store

variable {W : Nat} {st st' : Store A} {a : A} {h : List Bool}

private theorem getD_false_eq_true {o : Option Bool} : o.getD false = true ↔ o = some true := by
  cases o <;> simp

/-- The counter is the number of bits set in the window and the number of misses among its last `W`
blocks. -/
theorem WindowInv.missedBlocksCounter_eq (hinv : WindowInv W st a h) :
    ∃ info, st.getValidatorSigningInfo a = some info ∧ info.indexOffset = h.length ∧
      info.missedBlocksCounter = ((Finset.range W).filter fun i : Nat =>
        st.getValidatorMissedBlockBitArray a i = true).card ∧
      info.missedBlocksCounter = (h.rtake W).count true ∧
      0 ≤ info.missedBlocksCounter ∧ info.missedBlocksCounter ≤ W := by
  obtain ⟨info, hinfo, hoffset, hcounter⟩ := hinv.signingInfo
  have hbits : ((Finset.range W).filter fun i : Nat => st.getValidatorMissedBlockBitArray a i = true) =
      (Finset.range W).filter fun i => ringOf W h i = some true :=
    Finset.filter_congr fun i hi => by rw [hinv.bits i (Finset.mem_range.1 hi), getD_false_eq_true]
  have hle := trueCount_le W (ringOf W h)
  refine ⟨info, hinfo, hoffset, ?_, ?_, ?_, ?_⟩
  · rw [hbits, hcounter]
    rfl
  · rw [hcounter, trueCount_ringOf]
  · omega
  · omega

/-- A store that agrees on the parameters, the signing info and the bits of `a` keeps its window. -/
theorem WindowInv.of_agree (hinv : WindowInv W st a h) (hparams : st'.params = st.params)
    (hinfo : st'.getValidatorSigningInfo a = st.getValidatorSigningInfo a)
    (hbits : ∀ i : Int, st'.getValidatorMissedBlockBitArray a i = st.getValidatorMissedBlockBitArray a i) :
    WindowInv W st' a h :=
  ⟨by rw [hparams]; exact hinv.window, fun i hi => (hbits i).trans (hinv.bits i hi), by
    rw [hinfo]
    exact hinv.signingInfo⟩

theorem WindowInv.of_storeFrame {t t' : State A ε} (hinv : WindowInv W t.store a h)
    (hframe : StoreFrame t t') : WindowInv W t'.store a h := by
  obtain ⟨info, hinfo, -⟩ := hinv.signingInfo
  exact hinv.of_agree hframe.params (by rw [hframe.signingInfo hinfo, hinfo])
    (hframe.missedBlockBitArray a)

/-- A signing info that starts at offset and counter zero, over no bits, starts an empty window. -/
theorem windowInv_nil (hwindow : st.params.signedBlocksWindow = W) {info : ValidatorSigningInfo}
    (hinfo : st.getValidatorSigningInfo a = some info) (hoffset : info.indexOffset = 0)
    (hcounter : info.missedBlocksCounter = 0)
    (hbits : ∀ i : Nat, i < W → st.getValidatorMissedBlockBitArray a i = false) :
    WindowInv W st a [] :=
  ⟨hwindow, fun i hi => by rw [hbits i hi, ringOf_nil]; rfl,
    ⟨info, hinfo, hoffset, by rw [hcounter, ringOf_nil]; simp [trueCount]⟩⟩

/-- Recording the block after the flags `h`: its flag goes to slot `|h| % W`, and the counter moves
by the flag that enters and the one that leaves. -/
theorem WindowInv.record (hinv : WindowInv W st a h) (hW : 0 < W) {info info₁ : ValidatorSigningInfo}
    (hinfo : st.getValidatorSigningInfo a = some info) (missed : Bool)
    (hparams : st'.params = st.params)
    (hbits : ∀ j : Int, st'.getValidatorMissedBlockBitArray a j =
      if j = ((h.length % W : Nat) : Int) then missed else st.getValidatorMissedBlockBitArray a j)
    (hoffset : info₁.indexOffset = info.indexOffset + 1)
    (hcounter : info₁.missedBlocksCounter = info.missedBlocksCounter + (if missed then 1 else 0) -
      (if st.getValidatorMissedBlockBitArray a ((h.length % W : Nat) : Int) then 1 else 0)) :
    WindowInv W (st'.setValidatorSigningInfo a info₁) a (h ++ [missed]) := by
  obtain ⟨info', hinfo', hoffset', hcounter'⟩ := hinv.signingInfo
  rw [hinfo, Option.some.injEq] at hinfo'
  subst hinfo'
  refine ⟨by rw [Store.setValidatorSigningInfo_params, hparams, hinv.window], fun i hi => ?_,
    ⟨info₁, by simp, by rw [hoffset, hoffset', List.length_append, List.length_singleton]; push_cast; rfl, ?_⟩⟩
  · -- the new flag's slot, and the slots the block leaves alone
    rw [Store.setValidatorSigningInfo_missedBlockBitArray, hbits, ringOf_append_singleton]
    by_cases hslot : i = h.length % W
    · subst hslot
      simp
    · have hslot' : (i : Int) ≠ ((h.length % W : Nat) : Int) := by exact_mod_cast hslot
      rw [if_neg hslot', Function.update_of_ne hslot, hinv.bits i hi]
  · -- the counter follows the flag that enters the window and the one that leaves it
    have hstep : (trueCount W (ringOf W (h ++ [missed])) : Int) +
        (if ringOf W h (h.length % W) = some true then 1 else 0) =
        (trueCount W (ringOf W h) : Int) + (if missed then 1 else 0) := by
      exact_mod_cast trueCount_ringOf_append hW h missed
    have hprev : (if st.getValidatorMissedBlockBitArray a ((h.length % W : Nat) : Int) then
        (1 : Int) else 0) = (if ringOf W h (h.length % W) = some true then 1 else 0) := by
      rw [hinv.bits _ (Nat.mod_lt _ hW)]
      cases ringOf W h (h.length % W) with
      | none => rfl
      | some b => cases b <;> rfl
    rw [hcounter, hcounter', hprev]
    omega

/-- After a downtime punishment the window is empty: the bits of `a` are cleared, and its signing info
starts over at offset and counter zero. -/
theorem windowInv_reset (hwindow : st.params.signedBlocksWindow = W) {info : ValidatorSigningInfo}
    (hoffset : info.indexOffset = 0) (hcounter : info.missedBlocksCounter = 0) :
    WindowInv W ((st.clearValidatorMissedBlockBitArray a).setValidatorSigningInfo a info) a [] :=
  windowInv_nil (by simpa using hwindow) (by simp) hoffset hcounter fun i _ => by simp

/-- A signing info created by `AfterValidatorBonded` over no bits starts an empty window. -/
theorem windowInv_afterValidatorBonded {t t' : State A ε} {ctx : Ctx}
    (hwindow : t.store.params.signedBlocksWindow = W) (hnone : t.store.getValidatorSigningInfo a = none)
    (hbits : ∀ i : Nat, i < W → t.store.getValidatorMissedBlockBitArray a i = false)
    (hrun : afterValidatorBonded ctx a t = .ok ((), t')) : WindowInv W t'.store a [] := by
  rw [afterValidatorBonded, modify_eq_ok] at hrun
  subst hrun
  simp only [hnone]
  exact windowInv_nil (by simpa using hwindow)
    (by rw [Store.getValidatorSigningInfo_setValidatorSigningInfo, if_pos rfl]) rfl rfl
    fun i hi => by simpa using hbits i hi

end Store

/-! ### One call -/

section Step

variable (bank : BankKeeper A ε) (other : StakingHooks A ε)
variable {W : Nat} {a : A} {h : List Bool} {s s' : Staking.State A (State A ε)} {ctx : Ctx}
  {power : Int} {signed : Bool}

/-- The slash and the jailing of a downtime punishment change the slashing store only within
`StoreFrame`. -/
theorem storeFrame_punishment {t₀ t₁ t₂ : Staking.State A (State A ε)} {height : Int} {fraction : Dec}
    (hslash : (appKeeper bank other).slash ctx a height power fraction t₀ = .ok ((), t₁))
    (hjail : Staking.Keeper.jail a t₁ = .ok ((), t₂)) : StoreFrame t₀.rest t₂.rest :=
  IsTrans.trans _ t₁.rest _
    (Staking.Keeper.restRel_slash _ (appKeeper_keepsRest bank other) _ _ _ _ _ _ _ _ hslash)
    (Staking.Keeper.restRel_jail a _ _ _ hjail)

/-- Recording the block of a call for `a` appends its flag to the window of `a`, and keeps the staking
store, the parameters and the start height. -/
theorem recordMissed_window (hW : 0 < W) (hinv : WindowInv W s.rest.store a h)
    {info info₁ : ValidatorSigningInfo} (hinfo : s.rest.store.getValidatorSigningInfo a = some info)
    {missed : Bool} {s₁ : Staking.State A (State A ε)}
    (hrun : recordMissed a { info with indexOffset := info.indexOffset + 1 }
      (info.indexOffset.tmod s.rest.store.params.signedBlocksWindow) missed s = .ok (info₁, s₁)) :
    WindowInv W (s₁.rest.store.setValidatorSigningInfo a info₁) a (h ++ [missed]) ∧
      s₁.store = s.store ∧ s₁.rest.store.params = s.rest.store.params ∧
      info₁.startHeight = info.startHeight ∧
      info₁.missedBlocksCounter = ((h ++ [missed]).rtake W).count true := by
  obtain ⟨info', hinfo', hoffset, -⟩ := hinv.signingInfo
  rw [hinfo, Option.some.injEq] at hinfo'
  subst hinfo'
  -- the block after the flags `h` goes to the slot `|h| % W`
  have hindex : info.indexOffset.tmod s.rest.store.params.signedBlocksWindow =
      ((h.length % W : Nat) : Int) := by
    rw [hinv.window, hoffset, Int.ofNat_tmod]
  rw [hindex] at hrun
  obtain ⟨hinfo₁, st₁, rfl, hparams₁, -, hbits₁⟩ := recordMissed_eq_ok hrun
  have hrec : WindowInv W (st₁.setValidatorSigningInfo a info₁) a (h ++ [missed]) :=
    hinv.record hW hinfo missed hparams₁ (fun j => by simp [hbits₁]) (by rw [hinfo₁]) (by rw [hinfo₁])
  have hcount : info₁.missedBlocksCounter = ((h ++ [missed]).rtake W).count true := by
    obtain ⟨_, hget, -, -, hcount, -⟩ := hrec.missedBlocksCounter_eq
    simp only [Store.getValidatorSigningInfo_setValidatorSigningInfo, if_true,
      Option.some.injEq] at hget
    rw [hget]
    exact hcount
  exact ⟨hrec, rfl, hparams₁, by rw [hinfo₁], hcount⟩

/-- A call of `handleValidatorSignature` for `a` records the block's flag in the window, or, exactly
when `Downtime` holds, slashes and jails the validator and starts the window over. -/
theorem handleValidatorSignature_window (hinv : WindowInv W s.rest.store a h)
    (hrun : handleValidatorSignature (appKeeper bank other) ctx a power signed s = .ok ((), s')) :
    ∃ info minSigned, s.rest.store.getValidatorSigningInfo a = some info ∧
      s.rest.store.minSignedPerWindow = .ok minSigned ∧
      (Downtime W minSigned ctx info (h ++ [!signed]) s.store a →
        WindowInv W s'.rest.store a [] ∧ ∃ t₀ t₁ t₂ : Staking.State A (State A ε), t₀.store = s.store ∧
          (appKeeper bank other).slash ctx a (ctx.height - validatorUpdateDelay - 1) power
            s.rest.store.params.slashFractionDowntime t₀ = .ok ((), t₁) ∧
          Staking.Keeper.jail a t₁ = .ok ((), t₂) ∧ s'.store = t₂.store) ∧
      (¬ Downtime W minSigned ctx info (h ++ [!signed]) s.store a →
        WindowInv W s'.rest.store a (h ++ [!signed]) ∧ s'.store = s.store) := by
  obtain ⟨info, minSigned, hinfo, hwindow, hmin, info₁, s₁, hrecord, info₂, s₂, hbranch, rfl⟩ :=
    handleValidatorSignature_eq_ok _ hrun
  have hW : 0 < W := by
    have := hinv.window
    omega
  obtain ⟨hrec, hstore₁, hparams₁, hstart, hcount⟩ := recordMissed_window hW hinv hinfo hrecord
  refine ⟨info, minSigned, hinfo, hmin, fun hdown => ?_, fun hnot => ?_⟩
  · obtain ⟨hheight, hmissed, v, hv, hjailed⟩ := hdown
    rw [if_pos ⟨by rw [hstart, hinv.window]; exact hheight,
      by rw [hcount, hinv.window]; exact hmissed⟩] at hbranch
    rw [← hstore₁] at hv
    rcases punishDowntime_eq_ok _ hbranch with ⟨-, -, -, t₁, t₂, hslash, hjail, rfl, rfl⟩ | ⟨hall, -, -⟩
    · have hframe := storeFrame_punishment bank other hslash hjail
      refine ⟨windowInv_reset ?_ rfl rfl, s₁, t₁, t₂, hstore₁, ?_, hjail, rfl⟩
      · rw [hframe.params, hparams₁, hinv.window]
      · rw [← hparams₁]
        exact hslash
    · exact absurd (hall v hv) (by simp [hjailed])
  · -- no punishment: the code's condition fails, or the validator is missing or jailed
    have hkeep : info₂ = info₁ ∧ s₂ = s₁ := by
      split at hbranch
      · rename_i hcond
        rcases punishDowntime_eq_ok _ hbranch with ⟨v, hv, hjailed, -⟩ | ⟨-, hs, hi⟩
        · rw [hstore₁] at hv
          refine absurd ⟨?_, ?_, v, hv, hjailed⟩ hnot
          · rw [← hstart, ← hinv.window]
            exact hcond.1
          · rw [← hcount, ← hinv.window]
            exact hcond.2
        · exact ⟨hi, hs⟩
      · exact hbranch
    obtain ⟨rfl, rfl⟩ := hkeep
    exact ⟨hrec, hstore₁⟩

/-- A call for another address leaves the window of `b` as it was. -/
theorem handleValidatorSignature_window_of_ne {b : A} (hne : b ≠ a)
    (hinv : WindowInv W s.rest.store b h)
    (hrun : handleValidatorSignature (appKeeper bank other) ctx a power signed s = .ok ((), s')) :
    WindowInv W s'.rest.store b h := by
  obtain ⟨_, _, -, -, -, info₁, s₁, hrecord, info₂, s₂, hbranch, rfl⟩ :=
    handleValidatorSignature_eq_ok _ hrun
  obtain ⟨-, st₁, rfl, hparams₁, hinfos₁, hbits₁⟩ := recordMissed_eq_ok hrecord
  have h₁ : WindowInv W st₁ b h :=
    hinv.of_agree hparams₁ (hinfos₁ b) fun i => by rw [hbits₁, if_neg fun hc => hne hc.1]
  have h₂ : WindowInv W s₂.rest.store b h := by
    split at hbranch
    · rcases punishDowntime_eq_ok _ hbranch with ⟨-, -, -, t₁, t₂, hslash, hjail, rfl, -⟩ | ⟨-, rfl, -⟩
      · -- the slash and the jailing keep the window of `b`, and only the bits of `a` are cleared
        have hjailed : WindowInv W t₂.rest.store b h :=
          h₁.of_storeFrame (storeFrame_punishment bank other hslash hjail)
        exact hjailed.of_agree (by simp) (by simp) fun i => by simp [hne]
      · exact h₁
    · rw [hbranch.2]
      exact h₁
  exact h₂.of_agree (by simp) (by simp [hne]) fun i => by simp

end Step

/-! ### Runs of calls -/

section Run

variable (bank : BankKeeper A ε) (other : StakingHooks A ε)
variable {W : Nat} {a : A}

/-- The missed flags of the calls for `a`, in order. -/
def missedFlags (a : A) (calls : List (Ctx × VoteInfo A)) : List Bool :=
  (calls.filter fun c => c.2.address = a).map fun c => !c.2.signedLastBlock

@[simp] theorem missedFlags_nil (a : A) : missedFlags a [] = [] := rfl

theorem missedFlags_cons (a : A) (c : Ctx × VoteInfo A) (calls : List (Ctx × VoteInfo A)) :
    missedFlags a (c :: calls) =
      if c.2.address = a then (!c.2.signedLastBlock) :: missedFlags a calls else missedFlags a calls := by
  by_cases hc : c.2.address = a <;> simp [missedFlags, hc]

/-- Over a run of calls, the window of `a` keeps the flags of the calls for `a` since the last time it
started over. -/
theorem windowInv_of_run : ∀ (calls : List (Ctx × VoteInfo A)) {h : List Bool}
    {s s' : Staking.State A (State A ε)}, WindowInv W s.rest.store a h →
    calls.forM (fun c => handleValidatorSignature (appKeeper bank other) c.1 c.2.address c.2.power
      c.2.signedLastBlock) s = .ok ((), s') →
    ∃ h', WindowInv W s'.rest.store a h' ∧ h' <:+ h ++ missedFlags a calls
  | [], h, _, _, hinv, hrun => by
    obtain ⟨-, rfl⟩ := pure_eq_ok.1 hrun
    exact ⟨h, hinv, by simp⟩
  | c :: calls, h, s, s', hinv, hrun => by
    obtain ⟨⟨⟩, s₁, h₁, hrest⟩ := bind_eq_ok.1 hrun
    dsimp only at h₁
    rw [missedFlags_cons]
    by_cases hc : c.2.address = a
    · rw [if_pos hc]
      rw [hc] at h₁
      obtain ⟨info, minSigned, -, -, hdown, hkeep⟩ := handleValidatorSignature_window bank other hinv h₁
      by_cases hd : Downtime W minSigned c.1 info (h ++ [!c.2.signedLastBlock]) s.store a
      · -- the window started over at this call
        obtain ⟨h', hinv', hsuffix⟩ := windowInv_of_run calls (hdown hd).1 hrest
        refine ⟨h', hinv', hsuffix.trans ?_⟩
        rw [List.nil_append]
        exact List.suffix_append_of_suffix (List.suffix_cons _ _)
      · obtain ⟨h', hinv', hsuffix⟩ := windowInv_of_run calls (hkeep hd).1 hrest
        exact ⟨h', hinv', by simpa using hsuffix⟩
    · rw [if_neg hc]
      exact windowInv_of_run calls
        (handleValidatorSignature_window_of_ne bank other (Ne.symm hc) hinv h₁) hrest

end Run

end CosmosSdk.Slashing
