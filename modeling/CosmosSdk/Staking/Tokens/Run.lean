import CosmosSdk.Staking.Tokens.Entries
import CosmosSdk.Staking.Shares.Genesis

/-!
# The entries over every run

Every step of the application keeps `Store.EntriesInv`.
* The messages: `MsgUndelegate` and `MsgBeginRedelegate` append entries, the others write none.
* `Slash` lowers each unbonding entry it slashes by at most its balance. It unbonds shares at the
  destination of each redelegation entry and leaves the entry as it is.
* `Jail` and `Unjail`, and the minting of tokens.
* The end of a block, whose completions drop entries.

`BeginRedelegate` reads the share accounting to see that what the unbond pays is not negative.  So
the invariant of a run is the pair: the share accounting, which every step keeps on its own, and the
entries (`Reachable.entriesInv`).

`InitGenesis` writes the entries of a genesis state as they come, and `ValidateGenesis` does not look
at them.  From a genesis state whose records are accounted and whose entries are sound, the entries
are sound in every reachable state (`entriesSound_of_initGenesis`).
-/

namespace CosmosSdk.Staking

open StateExcept

variable {A : Type} [LinearOrder A]

/-- An unbonding entry whose balance is lowered by at most that balance stays sound. -/
theorem UnbondingDelegationEntry.Sound.slash {e : UnbondingDelegationEntry} (he : e.Sound)
    {slashAmount balance : Int} (h : SdkInt.sub e.balance (min slashAmount e.balance) = .ok balance) :
    ({ e with balance := balance } : UnbondingDelegationEntry).Sound := by
  refine ⟨he.1, ?_⟩
  show 0 ≤ balance
  rw [SdkInt.sub_eq_ok h]
  have := min_le_right slashAmount e.balance
  omega

namespace Keeper

variable {ε α : Type}

/-- Every run of `x` from a store whose entries are sound ends in one. -/
def KeepsEntries (x : KeeperM A ε α) : Prop :=
  Triple (fun s => s.store.EntriesInv) x fun _ s => s.store.EntriesInv

theorem KeepsEntries.of_sameEntries {x : KeeperM A ε α} (hx : Guarantees SameEntries x) :
    KeepsEntries x :=
  fun s a s' hinv h => (hx s a s' h).entriesInv hinv

theorem KeepsEntries.bind {β : Type} {x : KeeperM A ε α} {f : α → KeeperM A ε β}
    (hx : KeepsEntries x) (hf : ∀ a, KeepsEntries (f a)) : KeepsEntries (x >>= f) :=
  Triple.bind hx hf

theorem KeepsEntries.of_sameBooks {x : KeeperM A ε α} (hx : Guarantees SameBooks x) :
    KeepsEntries x :=
  KeepsEntries.of_sameEntries (sameEntries_of_books hx)

/-! ### The loops of `Slash` -/

theorem setUnbondingDelegation_keepsEntries {ubd : UnbondingDelegation A}
    (hentries : ∀ e ∈ ubd.entries, e.Sound) : KeepsEntries (setUnbondingDelegation (ε := ε) ubd) := by
  intro s u s' hinv h
  dsimp only [setUnbondingDelegation] at h
  rw [modifyStore_eq_ok.1 h]
  exact hinv.insertUnbonding _ hentries

/-- The loop of `slashUnbondingDelegation` keeps the entries sound: the record it writes back holds
the entries seen, one of them slashed, and the entries still to see. -/
theorem slashUnbondingEntries_keepsEntries (ctx : Ctx) (delAddr valAddr : A) (infractionHeight : Int)
    (slashFactor : Dec) :
    ∀ (done entries : List UnbondingDelegationEntry) (totalSlashAmount : Int),
      (∀ e ∈ done ++ entries, e.Sound) →
      KeepsEntries (slashUnbondingEntries (ε := ε) ctx delAddr valAddr infractionHeight slashFactor done
        entries totalSlashAmount)
  | _, [], _, _ => Triple.pure fun _ h => h
  | done, entry :: entries, _, hsound => by
    have hentry : entry.Sound := hsound entry (by simp)
    have hnext : ∀ e', e'.Sound → ∀ e ∈ done ++ [e'] ++ entries, e.Sound := by
      intro e' he' e he
      simp only [List.mem_append, List.mem_singleton] at he
      rcases he with (he | rfl) | he
      · exact hsound e (List.mem_append_left _ he)
      · exact he'
      · exact hsound e (List.mem_append_right _ (List.mem_cons_of_mem _ he))
    have ih := fun e' (he' : UnbondingDelegationEntry.Sound e') totalSlashAmount' =>
      slashUnbondingEntries_keepsEntries ctx delAddr valAddr infractionHeight slashFactor (done ++ [e'])
        entries totalSlashAmount' (hnext e' he')
    rw [slashUnbondingEntries]
    refine Triple.ite (fun _ => ih entry hentry _) fun _ => ?_
    refine Triple.lift_bind fun _ _ => Triple.lift_bind fun _ _ => Triple.lift_bind fun _ _ => ?_
    refine Triple.ite (fun _ => ih entry hentry _) fun _ => ?_
    refine Triple.lift_bind fun balance hbalance => ?_
    -- the slashed entry takes the place of `entry` in the record written back
    have hslashed := hentry.slash hbalance
    refine (setUnbondingDelegation_keepsEntries fun e he => ?_).bind fun _ => ?_
    · exact hnext _ hslashed e (by rwa [List.append_assoc, List.singleton_append])
    refine (KeepsEntries.of_sameBooks sameBooks_getPool).bind fun _ => ?_
    exact Triple.lift_bind fun _ _ => (KeepsEntries.of_sameEntries (sameEntries_setPool _)).bind
      fun _ => ih _ hslashed _

theorem slashUnbondingDelegations_keepsEntries (ctx : Ctx) (infractionHeight : Int) (slashFactor : Dec) :
    ∀ (ubds : List (UnbondingDelegation A)) (remainingSlashAmount : Int),
      (∀ ubd ∈ ubds, ∀ e ∈ ubd.entries, e.Sound) →
      KeepsEntries (slashUnbondingDelegations (ε := ε) ctx infractionHeight slashFactor ubds
        remainingSlashAmount)
  | [], _, _ => Triple.pure fun _ h => h
  | ubd :: ubds, _, hsound => by
    rw [slashUnbondingDelegations]
    refine (slashUnbondingEntries_keepsEntries ctx _ _ infractionHeight slashFactor [] ubd.entries 0
      (by simpa using hsound ubd List.mem_cons_self)).bind fun _ => ?_
    refine KeepsEntries.bind (Triple.ite (fun _ => Triple.pure fun _ h => h)
      fun _ => Triple.lift fun _ _ h _ => h) fun _ => ?_
    exact slashUnbondingDelegations_keepsEntries ctx infractionHeight slashFactor ubds _
      fun u hu => hsound u (List.mem_cons_of_mem _ hu)

/-- The unbonding delegations of a validator are read from the store, so their entries are sound. -/
theorem getUnbondingDelegationsFromValidator_sound (valAddr : A) :
    Triple (fun s => s.store.EntriesInv) (getUnbondingDelegationsFromValidator (ε := ε) valAddr)
      fun ubds s => (∀ ubd ∈ ubds, ∀ e ∈ ubd.entries, e.Sound) ∧ s.store.EntriesInv := by
  intro s ubds s' hinv h
  obtain ⟨st, s₁, h₁, h⟩ := bind_eq_ok.1 h
  obtain ⟨rfl, rfl⟩ := getStore_eq_ok.1 h₁
  obtain ⟨rfl, rfl⟩ := pure_eq_ok.1 h
  refine ⟨fun ubd hubd e he => ?_, hinv⟩
  obtain ⟨delAddr, -, hlookup⟩ := List.mem_filterMap.1 hubd
  obtain ⟨entries, hentries, rfl⟩ := Option.map_eq_some_iff.1 hlookup
  exact hinv.unbonding hentries e he

variable (k : Keeper A ε)

/-- The loop of `slashRedelegation` unbonds shares and burns tokens: no entry changes. -/
theorem sameEntries_slashRedelegationEntries (ctx : Ctx) (delAddr valDstAddr : A) (infractionHeight : Int)
    (slashFactor : Dec) :
    ∀ (entries : List RedelegationEntry) (totalSlashAmount : Int),
      Guarantees SameEntries
        (k.slashRedelegationEntries ctx delAddr valDstAddr infractionHeight slashFactor entries
          totalSlashAmount)
  | [], _ => Guarantees.pure _
  | entry :: entries, _ => by
    have ih := sameEntries_slashRedelegationEntries ctx delAddr valDstAddr infractionHeight slashFactor
      entries
    rw [slashRedelegationEntries]
    refine Guarantees.ite (fun _ => ih _) fun _ => ?_
    refine (Guarantees.lift _).bind fun _ => (Guarantees.lift _).bind fun _ =>
      (Guarantees.lift _).bind fun _ => (Guarantees.lift _).bind fun _ => ?_
    refine Guarantees.ite (fun _ => ih _) fun _ => ?_
    refine (sameEntries_of_books (sameBooks_getDelegation _ _)).bind fun found => ?_
    cases found with
    | none => exact ih _
    | some delegation =>
      refine (sameEntries_unbond k ctx _ _ _).bind fun result => ?_
      cases result with
      | error _ => exact Guarantees.throw _
      | ok tokensToBurn =>
        exact (sameEntries_of_books sameBooks_getPool).bind fun _ => (Guarantees.lift _).bind fun _ =>
          (sameEntries_setPool _).bind fun _ => ih _

theorem sameEntries_slashRedelegations (ctx : Ctx) (infractionHeight : Int) (slashFactor : Dec) :
    ∀ (reds : List (Redelegation A)) (remainingSlashAmount : Int),
      Guarantees SameEntries (k.slashRedelegations ctx infractionHeight slashFactor reds remainingSlashAmount)
  | [], _ => Guarantees.pure _
  | red :: reds, _ => by
    rw [slashRedelegations]
    exact (sameEntries_slashRedelegationEntries k ctx _ _ infractionHeight slashFactor red.entries 0).bind
      fun _ => (Guarantees.ite (fun _ => Guarantees.pure _) fun _ => Guarantees.lift _).bind fun _ =>
        sameEntries_slashRedelegations ctx infractionHeight slashFactor reds _

/-! ### Each step -/

/-- `Slash` keeps the entries sound: the unbonding entries it slashes keep a nonnegative balance,
and the redelegation entries stay as they are. -/
theorem slash_keepsEntries (ctx : Ctx) (consAddr : A) (infractionHeight power : Int) (slashFactor : Dec) :
    KeepsEntries (k.slash ctx consAddr infractionHeight power slashFactor) := by
  unfold slash
  dsimp only
  refine Triple.ite (fun _ => Triple.throw_bind _) fun _ => ?_
  refine Triple.lift_bind fun _ _ => Triple.lift_bind fun _ _ => Triple.lift_bind fun _ _ => ?_
  refine (KeepsEntries.of_sameBooks (sameBooks_getValidatorByConsAddr _)).bind fun found => ?_
  cases found with
  | none => exact Triple.pure fun _ h => h
  | some validator =>
  dsimp only
  refine Triple.ite (fun _ => Triple.throw_bind _) fun _ => ?_
  refine (KeepsEntries.of_sameBooks (sameBooks_onRest _)).bind fun _ => ?_
  -- the loops over the unbonding delegations and the redelegations, for a past infraction
  refine KeepsEntries.bind (Triple.ite (fun _ => Triple.throw _)
    fun _ => Triple.ite (fun _ => Triple.pure fun _ h => h) fun _ => ?_) fun _ => ?_
  · refine (getUnbondingDelegationsFromValidator_sound _).bind fun _ => Triple.of_forall fun hubds => ?_
    refine (slashUnbondingDelegations_keepsEntries ctx infractionHeight slashFactor _ _ hubds).bind
      fun _ => ?_
    exact (KeepsEntries.of_sameBooks (sameBooks_getRedelegationsFromValidator _)).bind fun _ =>
      KeepsEntries.of_sameEntries (sameEntries_slashRedelegations k ctx infractionHeight slashFactor _ _)
  refine KeepsEntries.of_sameEntries (Guarantees.bind (Guarantees.ite (fun _ => (Guarantees.lift _).bind
    fun _ => sameEntries_of_books (sameBooks_onRest _)) fun _ => Guarantees.pure _) fun _ => ?_)
  exact (sameEntries_removeValidatorTokens _ _).bind fun _ => (sameEntries_of_books sameBooks_getPool).bind
    fun _ => (Guarantees.lift _).bind fun _ => sameEntries_setPool _

/-- The handler of a message that passes `ValidateBasic`, on an accounted ledger, keeps the entries
sound: `Undelegate` and `BeginRedelegate` append entries of nonnegative balances. -/
theorem handler_entriesInv [OrderBot A] {s s' : State A ε} {ctx : Ctx} {msg : Msg A} {r : Except Error Unit}
    (hvalid : msg.validateBasic = none) (hshares : s.store.ledger.SharesInv) (hinv : s.store.EntriesInv)
    (h : k.handler ctx msg s = .ok (r, s')) : s'.store.EntriesInv := by
  cases msg with
  | createValidator description commission minSelfDelegation delegatorAddress validatorAddress pubKey
      value =>
    exact KeepsEntries.of_sameEntries (sameEntries_handleMsgCreateValidator k ctx description commission
      minSelfDelegation delegatorAddress validatorAddress pubKey value) _ _ _ hinv h
  | editValidator description validatorAddress commissionRate minSelfDelegation =>
    exact KeepsEntries.of_sameBooks (sameBooks_handleMsgEditValidator k ctx description validatorAddress
      commissionRate minSelfDelegation) _ _ _ hinv h
  | delegate delegatorAddress validatorAddress value =>
    exact KeepsEntries.of_sameEntries (sameEntries_handleMsgDelegate k ctx delegatorAddress
      validatorAddress value) _ _ _ hinv h
  | undelegate delegatorAddress validatorAddress sharesAmount =>
    obtain ⟨_, s₁, h₁, h⟩ := bind_eq_ok.1 h
    obtain ⟨-, rfl⟩ := pure_eq_ok.1 h
    exact undelegate_entriesInv k hinv h₁
  | beginRedelegate delegatorAddress validatorSrcAddress validatorDstAddress sharesAmount =>
    obtain ⟨_, s₁, h₁, h⟩ := bind_eq_ok.1 h
    obtain ⟨-, rfl⟩ := pure_eq_ok.1 h
    exact beginRedelegation_entriesInv k hshares (Msg.validateBasic_beginRedelegate_shares hvalid).le hinv h₁

/-- The end blocker keeps the entries sound: the validator-set updates write none, and the
completions keep or drop them. -/
theorem endBlocker_keepsEntries (ctx : Ctx) : KeepsEntries (k.endBlocker ctx) := by
  unfold endBlocker
  refine (KeepsEntries.of_sameEntries (sameEntries_applyAndReturnValidatorSetUpdates k ctx)).bind
    fun _ => ?_
  refine (KeepsEntries.of_sameEntries (sameEntries_unbondAllMatureValidatorQueue k ctx)).bind fun _ => ?_
  refine (KeepsEntries.of_sameBooks (sameBooks_dequeueAllMatureUBDQueue ctx)).bind fun _ => ?_
  refine (Triple.forM fun _ _ => Triple.bind (fun _ _ _ hinv h => completeUnbonding_entriesInv k hinv h)
    fun _ => Triple.pure fun _ h => h).bind fun _ => ?_
  refine (KeepsEntries.of_sameBooks (sameBooks_dequeueAllMatureRedelegationQueue ctx)).bind fun _ => ?_
  refine (Triple.forM fun _ _ => Triple.bind (fun _ _ _ hinv h => completeRedelegation_entriesInv hinv h)
    fun _ => Triple.pure fun _ h => h).bind fun _ => ?_
  exact Triple.pure fun _ h => h

end Keeper

/-! ### Every run -/

variable {ε : Type} {k : Keeper A ε}

/-- Every step out of an accounted state keeps the entries sound. -/
theorem Step.entriesInv [OrderBot A] {s s' : State A ε} (hstep : Step k s s')
    (hshares : s.store.ledger.SharesInv) (hinv : s.store.EntriesInv) : s'.store.EntriesInv := by
  cases hstep with
  | msg ctx msg hvalid h => exact Keeper.handler_entriesInv k hvalid hshares hinv h
  | slash ctx consAddr infractionHeight power slashFactor h =>
    exact Keeper.slash_keepsEntries k ctx consAddr infractionHeight power slashFactor _ _ _ hinv h
  | jail consAddr h => exact Keeper.KeepsEntries.of_sameBooks (Keeper.sameBooks_jail consAddr) _ _ _ hinv h
  | unjail consAddr h =>
    exact Keeper.KeepsEntries.of_sameBooks (Keeper.sameBooks_unjail consAddr) _ _ _ hinv h
  | inflateSupply newTokens _ h =>
    exact Keeper.KeepsEntries.of_sameEntries (Keeper.sameEntries_inflateSupply newTokens) _ _ _ hinv h
  | endBlock ctx updates h => exact Keeper.endBlocker_keepsEntries k ctx _ _ _ hinv h
  | rest e => exact hinv

/-- In every state reachable from an accounted state with sound entries, the entries are sound. -/
theorem Reachable.entriesInv [OrderBot A] {s₀ s : State A ε} (hshares : s₀.store.ledger.SharesInv)
    (hinv : s₀.store.EntriesInv) (hs : Reachable k s₀ s) : s.store.EntriesInv := by
  induction hs with
  | init => exact hinv
  | step hreach hstep ih => exact hstep.entriesInv (hreach.sharesInv hshares) ih

/-! ### From genesis -/

/-- The unbonding entries of a genesis state hold nonnegative balances, and its redelegation entries
nonnegative initial balances. -/
def GenesisState.EntriesSound (g : GenesisState A) : Prop :=
  (∀ ubd ∈ g.unbondingDelegations, ∀ e ∈ ubd.entries, e.Sound) ∧
    ∀ red ∈ g.redelegations, ∀ e ∈ red.entries, 0 ≤ e.initialBalance

theorem Store.EntriesInv.of_empty {st : Store A} (hubd : st.unbondingDelegations = ∅)
    (hred : st.redelegations = ∅) : st.EntriesInv where
  unbonding hl := by simp [hubd] at hl
  redelegation hl := by simp [hred] at hl

namespace Keeper

theorem setRedelegation_keepsEntries {red : Redelegation A}
    (hentries : ∀ e ∈ red.entries, 0 ≤ e.initialBalance) :
    KeepsEntries (setRedelegation (ε := ε) red) := by
  intro s u s' hinv h
  rw [setRedelegation_eq_ok.1 h]
  exact hinv.insertRedelegation _ hentries

omit [LinearOrder A] in
theorem sameBooks_setParams (params : Params) :
    Guarantees SameBooks (setParams (A := A) (ε := ε) params) :=
  sameBooks_modifyStore fun _ => ⟨rfl, rfl, rfl⟩

theorem sameBooks_initGenesisValidator (k : Keeper A ε) (ctx : Ctx) (exported : Bool) (v : Validator A) :
    Guarantees SameBooks (k.initGenesisValidator ctx exported v) :=
  (sameBooks_setValidator v).bind fun _ => (sameBooks_setValidatorByConsAddr v).bind fun _ =>
    (sameBooks_setValidatorByPowerIndex v).bind fun _ =>
      (Guarantees.ite (fun _ => sameBooks_onRest _) fun _ => Guarantees.pure _).bind fun _ =>
        Guarantees.ite (fun _ => sameBooks_insertValidatorQueue v) fun _ => Guarantees.pure _

theorem sameBooks_initGenesisDelegation (k : Keeper A ε) (ctx : Ctx) (exported : Bool)
    (d : Delegation A) : Guarantees SameBooks (k.initGenesisDelegation ctx exported d) :=
  (Guarantees.ite (fun _ => sameBooks_onRest _) fun _ => Guarantees.pure _).bind fun _ =>
    (sameBooks_setDelegation d).bind fun _ =>
      Guarantees.ite (fun _ => sameBooks_onRest _) fun _ => Guarantees.pure _

theorem sameBooks_initGenesisLastValidatorPower (lv : LastValidatorPower A) :
    Guarantees SameBooks (initGenesisLastValidatorPower (ε := ε) lv) := by
  refine (sameBooks_setLastValidatorPower _ _).bind fun _ =>
    (sameBooks_getValidator _).bind fun found => ?_
  cases found with
  | none => exact Guarantees.throw _
  | some validator => exact (Guarantees.lift _).bind fun _ => Guarantees.pure _

/-- `InitGenesis` writes the entries of the genesis state: when they are sound, the entries stay
sound. -/
theorem initGenesis_keepsEntries (k : Keeper A ε) (ctx : Ctx) {g : GenesisState A}
    (hg : g.EntriesSound) : KeepsEntries (k.initGenesis ctx g) := by
  unfold initGenesis
  refine (KeepsEntries.of_sameEntries (sameEntries_setPool _)).bind fun _ => ?_
  refine (KeepsEntries.of_sameBooks (sameBooks_setParams _)).bind fun _ => ?_
  refine (KeepsEntries.of_sameBooks (sameBooks_setLastTotalPower _)).bind fun _ => ?_
  refine (Triple.forM fun v _ => KeepsEntries.of_sameBooks
    (sameBooks_initGenesisValidator k _ _ v)).bind fun _ => ?_
  refine (Triple.forM fun d _ => KeepsEntries.of_sameBooks
    (sameBooks_initGenesisDelegation k _ _ d)).bind fun _ => ?_
  refine (Triple.forM fun ubd hubd => (setUnbondingDelegation_keepsEntries (hg.1 ubd hubd)).bind
    fun _ => Triple.forM fun _ _ => KeepsEntries.of_sameBooks (sameBooks_insertUBDQueue _ _)).bind
    fun _ => ?_
  refine (Triple.forM fun red hred => (setRedelegation_keepsEntries (hg.2 red hred)).bind
    fun _ => Triple.forM fun _ _ => KeepsEntries.of_sameBooks
      (sameBooks_insertRedelegationQueue _ _)).bind fun _ => ?_
  exact Triple.ite (fun _ => KeepsEntries.of_sameBooks
      (Guarantees.mapM fun lv _ => sameBooks_initGenesisLastValidatorPower lv))
    fun _ => KeepsEntries.of_sameEntries (sameEntries_applyAndReturnValidatorSetUpdates k _)

end Keeper

/-- From the state that `InitGenesis` writes on a store without records, for a genesis state whose
records are accounted and whose entries are sound, every reachable state holds sound entries: each
unbonding entry a nonnegative initial balance and a nonnegative balance, and each redelegation entry
a nonnegative initial balance. -/
theorem entriesSound_of_initGenesis [OrderBot A] {ctx : Ctx} {g : GenesisState A}
    {s s₀ s' : State A ε} {updates : List (ValidatorUpdate A)} (hg : g.ledger.SharesInv)
    (hentries : g.EntriesSound) (hempty : s.store.ledger = ⟨∅, ∅, ∅⟩)
    (hubd : s.store.unbondingDelegations = ∅)
    (hinit : k.initGenesis ctx g s = .ok (updates, s₀)) (hs : Reachable k s₀ s') :
    (∀ key entries, s'.store.unbondingDelegations.lookup key = some entries →
      ∀ e ∈ entries, 0 ≤ e.initialBalance ∧ 0 ≤ e.balance) ∧
    (∀ key entries, s'.store.redelegations.lookup key = some entries →
      ∀ e ∈ entries, 0 ≤ e.initialBalance) := by
  have hblank : s.store.EntriesInv :=
    Store.EntriesInv.of_empty hubd (congrArg Ledger.redelegations hempty)
  have hshares₀ := Keeper.initGenesis_sharesInv k (hempty ▸ hg) hinit
  have hinv := hs.entriesInv hshares₀ (Keeper.initGenesis_keepsEntries k ctx hentries _ _ _ hblank hinit)
  exact ⟨fun _ _ hl => hinv.unbonding hl, fun _ _ hl => hinv.redelegation hl⟩

/-- A genesis state whose one validator, delegated to by its operator, holds the tokens of a power of
two: `InitGenesis` bonds it. -/
def bondedGenesis : GenesisState Nat :=
  { sampleGenesis with
    pool := ⟨2000000, 0⟩
    validators := [{ sampleValidator with
      tokens := 2000000, delegatorShares := Dec.newDecFromInt 2000000 }]
    delegations := [⟨1, 1, Dec.newDecFromInt 2000000⟩] }

/-- After `InitGenesis` of `bondedGenesis`, the operator undelegates half of its shares.  The
validator is bonded, so the tokens wait out the unbonding time in an entry, and every entry of the
state reached is sound. -/
theorem entriesSound_of_initGenesis_undelegate :
    ∃ updates s₀ s, payingKeeper.initGenesis ⟨0, 0⟩ bondedGenesis blankState = .ok (updates, s₀) ∧
      Reachable payingKeeper s₀ s ∧
      s.store.unbondingDelegations.lookup (1, 1) = some [⟨1, 1814400000000000, 1000000, 1000000⟩] ∧
      (∀ key entries, s.store.unbondingDelegations.lookup key = some entries →
        ∀ e ∈ entries, 0 ≤ e.initialBalance ∧ 0 ≤ e.balance) ∧
      (∀ key entries, s.store.redelegations.lookup key = some entries →
        ∀ e ∈ entries, 0 ≤ e.initialBalance) := by
  have hcheck : checkOk (genesisThenDeliver bondedGenesis (.undelegate 1 1 (Dec.newDecFromInt 1000000)))
      (fun r => r.1.isOk && decide (r.2.store.unbondingDelegations.lookup (1, 1) =
        some [⟨1, 1814400000000000, 1000000, 1000000⟩])) = true := by
    decide +kernel
  obtain ⟨⟨res, s⟩, hrun, hres⟩ := exists_eq_ok_of_checkOk hcheck
  obtain ⟨⟨updates, s₀⟩, hinit, hmsg⟩ := except_bind_eq_ok.1 hrun
  simp only [Bool.and_eq_true, decide_eq_true_eq] at hres
  obtain rfl : res = .ok () := eq_ok_unit_of_isOk hres.1
  have hs : Reachable payingKeeper s₀ s := .step .init (.msg _ _ (by decide) hmsg)
  have hg : bondedGenesis.ledger.SharesInv :=
    GenesisState.ledger_sharesInv_of_single rfl rfl rfl (by decide) (by decide) (by decide)
  have hentries : bondedGenesis.EntriesSound :=
    ⟨fun _ h => absurd h List.not_mem_nil, fun _ h => absurd h List.not_mem_nil⟩
  exact ⟨updates, s₀, s, hinit, hs, hres.2,
    entriesSound_of_initGenesis hg hentries rfl rfl hinit hs⟩

end CosmosSdk.Staking
