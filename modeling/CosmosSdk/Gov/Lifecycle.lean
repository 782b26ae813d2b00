import CosmosSdk.Gov.EndBlock
import CosmosSdk.Lib.Transition

/-!
# The life of a proposal

Governance as a system: a message delivered as `runTx` delivers it, its writes kept only when its result
is OK (`deliverMsg`); the end blocker of a block; and the bank, which the other modules change between
the steps of governance (`Step`).

Over every run from a store in order whose next ID has room for the proposals it submits
(`GovStore.RoomFor`; `getNewProposalID` wraps the `uint64` to zero, `submit_wraps_next`):

* the store stays in order (`Step.wf`, `run_wf`);
* under every ID the store moves on as a proposal's life allows (`GovStore.Advances`, `Step.advances`):
  the next ID never goes back, an ID whose proposal is gone is never used again, a passed or rejected
  proposal is never changed again, and a stored proposal keeps what was proposed, its submit time and
  its deposit end time, while its status only moves forward.

Each step touches one ID, or under the end blocker the IDs of its two walks, so each fact is proved at
the touched IDs by what the write stores there, and elsewhere by `SameAt`.
-/

namespace CosmosSdk.Gov

open CosmosSdk.Types Auth StateExcept Transition

/-! ### The steps -/

/-- What happens to the governance state between two steps of a chain. -/
inductive Event where
  | deliver (blockTime : Int) (msg : Msg)
  | endBlock (blockTime : Int) (stake : Staking.Store AccAddress)
  | bank

variable {β : Type}

/-- One step: a delivered message, an end blocker that returns (one that panics halts the chain), or a
change of the bank by another module. -/
inductive Step (k : Keeper β) : GovState β → Event → GovState β → Prop
  | deliver (s : GovState β) (blockTime : Int) (msg : Msg) :
      Step k s (.deliver blockTime msg) (deliverMsg k blockTime msg s)
  | endBlock {s s' : GovState β} {blockTime : Int} {stake : Staking.Store AccAddress} {tags : Tags} :
      endBlocker k blockTime stake s = .ok (tags, s') → Step k s (.endBlock blockTime stake) s'
  | bank (s : GovState β) (bank : β) : Step k s .bank { s with bank := bank }

/-- The proposal IDs an event may take: one for a delivered proposal. -/
def Event.newProposalIDs : Event → Nat
  | .deliver _ msg => msg.newProposalIDs
  | .endBlock _ _ | .bank => 0

variable {k : Keeper β} {s s' : GovState β} {e : Event}

/-- A handler leaves the next ID as it was, or moves it on by the IDs its message may take, as a
`uint64`. -/
theorem handler_next {blockTime : Int} {msg : Msg} {r : Result} (h : handler k blockTime msg s = .ok (r, s'))
    {n : Nat} (hn : s.store.nextProposalID = some n) :
    s'.store.nextProposalID = some n ∨ s'.store.nextProposalID = some ((n + msg.newProposalIDs) % 2 ^ 64) := by
  cases msg with
  | deposit msg =>
    obtain ⟨_, h⟩ := handleMsgDeposit_eq_ok h
    exact .inl ((addDeposit_nextProposalID h).trans hn)
  | submitProposal msg =>
    obtain ⟨p, s₁, _, h₁, h⟩ := handleMsgSubmitProposal_eq_ok h
    rw [addDeposit_nextProposalID h]
    rcases newTextProposal_eq_ok h₁ with ⟨-, rfl⟩ | ⟨n', -, hn', -, -, -, -, -, rfl⟩
    · exact .inl hn
    · rw [hn, Option.some.injEq] at hn'
      subst hn'
      exact .inr rfl
  | vote msg =>
    obtain ⟨_, h⟩ := handleMsgVote_eq_ok h
    rcases addVote_eq_ok h with rfl | ⟨_, -, -, -, rfl⟩ <;> exact .inl hn

theorem Step.next (hwf : s.store.Wf) (h : Step k s e s') {n : Nat} (hn : s.store.nextProposalID = some n) :
    s'.store.nextProposalID = some n ∨ s'.store.nextProposalID = some ((n + e.newProposalIDs) % 2 ^ 64) := by
  cases h with
  | deliver blockTime msg =>
    rcases deliverMsg_eq k blockTime msg s with heq | ⟨_, hrun⟩
    · rw [heq]
      exact .inl hn
    · exact handler_next hrun hn
  | endBlock h =>
    obtain ⟨-, -, -, -, hglobals, -, -⟩ := endBlocker_eq_ok hwf h
    exact .inl (hglobals.next.trans hn)
  | bank bank => exact .inl hn

/-- A step spends the room for the IDs its event may take. -/
theorem Step.roomFor (hwf : s.store.Wf) (h : Step k s e s') {m : Nat}
    (hroom : s.store.RoomFor (e.newProposalIDs + m)) : s'.store.RoomFor m := by
  obtain ⟨n, hn, hlt⟩ := hroom
  rcases h.next hwf hn with hn' | hn'
  · exact ⟨n, hn', by omega⟩
  · exact ⟨n + e.newProposalIDs, by rw [hn', Nat.mod_eq_of_lt (by omega)], by omega⟩

theorem Step.wf (hwf : s.store.Wf) (hroom : s.store.RoomFor e.newProposalIDs) (h : Step k s e s') :
    s'.store.Wf := by
  cases h with
  | deliver blockTime msg => exact deliverMsg_wf hwf hroom
  | endBlock h => exact endBlocker_wf hwf h
  | bank bank => exact hwf

/-- A property that the steps keep from a store in order with room for their new proposals holds, with
the order of the store, along every run of such steps with room for the run's new proposals. -/
theorem run_invariant {R : GovState β → Event → GovState β → Prop} (hR : ∀ {s e s'}, R s e s' → Step k s e s')
    {I : GovState β → Prop}
    (hstep : ∀ s e s', s.store.Wf → s.store.RoomFor e.newProposalIDs → I s → R s e s' → I s')
    {es : List Event} (hwf : s.store.Wf) (hroom : s.store.RoomFor (es.map Event.newProposalIDs).sum)
    (hrun : Run R s es s') (hs : I s) : s'.store.Wf ∧ I s' := by
  have hinv := hrun.invariant_budget Event.newProposalIDs
    (I := fun s m => (s.store.Wf ∧ s.store.RoomFor m) ∧ I s)
    (fun s e s' m ⟨⟨hwf, hroom⟩, hs⟩ h =>
      ⟨⟨(hR h).wf hwf (hroom.mono (by omega)), (hR h).roomFor hwf hroom⟩,
        hstep s e s' hwf (hroom.mono (by omega)) hs h⟩)
    (m := 0) ⟨⟨hwf, hroom⟩, hs⟩
  exact ⟨hinv.1.1, hinv.2⟩

/-- Every state a run from a store in order reaches is in order, whatever messages it delivers, blocks it
ends and bank changes other modules make in between, while the next ID has room for the proposals the
run submits. -/
theorem run_wf {es : List Event} (hwf : s.store.Wf) (hroom : s.store.RoomFor (es.map Event.newProposalIDs).sum)
    (hrun : Run (Step k) s es s') : s'.store.Wf :=
  (run_invariant (fun h => h) (I := fun _ => True) (fun _ _ _ _ _ _ _ => trivial) hwf hroom hrun trivial).1

/-- The messages of the sample chain, in order. -/
def sampleMessages : List Event :=
  [.deliver 1 (.submitProposal ⟨"title", "text", .text, [3], [⟨"atom", 2⟩]⟩),
    .deliver 1 (.submitProposal ⟨"title", "text", .text, [4], [⟨"atom", 5⟩]⟩),
    .deliver 2 (.vote ⟨2, [4], .yes⟩), .deliver 2 (.deposit ⟨2, [4], [⟨"atom", 1⟩]⟩)]

theorem run_sampleMessages : Run (Step sampleKeeper) sampleGenesis sampleMessages sampleChain :=
  .cons (.deliver _ 1 _) (.cons (.deliver _ 1 _) (.cons (.deliver _ 2 _) (.single (.deliver _ 2 _))))

/-- The sample chain's messages and the block at time 5, at which both proposals are due. -/
theorem run_sampleBlock :
    ∃ s', Run (Step sampleKeeper) sampleGenesis (sampleMessages ++ [Event.endBlock 5 sampleStake]) s' := by
  obtain ⟨⟨tags, s'⟩, h⟩ :=
    exists_eq_ok_of_isOk (by decide +kernel : (endBlocker sampleKeeper 5 sampleStake sampleChain).isOk = true)
  exact ⟨s', run_sampleMessages.append (.single (.endBlock h))⟩

/-- The sample chain, its proposals submitted, voted on, deposited to and closed, stays in order. -/
theorem run_wf_sample :
    sampleGenesis.store.Wf ∧
      sampleGenesis.store.RoomFor ((sampleMessages ++ [Event.endBlock 5 sampleStake]).map Event.newProposalIDs).sum ∧
      ∃ s', Run (Step sampleKeeper) sampleGenesis (sampleMessages ++ [Event.endBlock 5 sampleStake]) s' ∧
        s'.store.Wf := by
  have h₀ : sampleGenesis.store.Wf := GovStore.Wf.empty _ _ _ 1
  have hroom : sampleGenesis.store.RoomFor
      ((sampleMessages ++ [Event.endBlock 5 sampleStake]).map Event.newProposalIDs).sum := ⟨1, rfl, by decide⟩
  obtain ⟨s', hrun⟩ := run_sampleBlock
  exact ⟨h₀, hroom, s', hrun, run_wf h₀ hroom hrun⟩

/-- At the last `uint64` ID a submission wraps the next ID to zero, below the proposal it stores: the
store is no longer in order. -/
theorem submit_wraps_next :
    ({ GovStore.empty ⟨[], 0⟩ ⟨0⟩ ⟨⟨0⟩, ⟨0⟩, ⟨0⟩⟩ with nextProposalID := some (2 ^ 64 - 1) } : GovStore).Wf ∧
      (deliverMsg (⟨"gov", [1], [2], fun _ => "", fun _ _ _ _ => pure (.ok ())⟩ : Keeper Unit) 1
        (.submitProposal ⟨"title", "text", .text, [3], []⟩)
        ⟨{ GovStore.empty ⟨[], 0⟩ ⟨0⟩ ⟨⟨0⟩, ⟨0⟩, ⟨0⟩⟩ with nextProposalID := some (2 ^ 64 - 1) }, ()⟩).store.nextProposalID =
        some 0 ∧
      ¬ (deliverMsg (⟨"gov", [1], [2], fun _ => "", fun _ _ _ _ => pure (.ok ())⟩ : Keeper Unit) 1
        (.submitProposal ⟨"title", "text", .text, [3], []⟩)
        ⟨{ GovStore.empty ⟨[], 0⟩ ⟨0⟩ ⟨⟨0⟩, ⟨0⟩, ⟨0⟩⟩ with nextProposalID := some (2 ^ 64 - 1) }, ()⟩).store.Wf := by
  have hnext : (deliverMsg (⟨"gov", [1], [2], fun _ => "", fun _ _ _ _ => pure (.ok ())⟩ : Keeper Unit) 1
      (.submitProposal ⟨"title", "text", .text, [3], []⟩)
      ⟨{ GovStore.empty ⟨[], 0⟩ ⟨0⟩ ⟨⟨0⟩, ⟨0⟩, ⟨0⟩⟩ with nextProposalID := some (2 ^ 64 - 1) }, ()⟩).store.nextProposalID =
      some 0 := by decide +kernel
  have hstored : ((deliverMsg (⟨"gov", [1], [2], fun _ => "", fun _ _ _ _ => pure (.ok ())⟩ : Keeper Unit) 1
      (.submitProposal ⟨"title", "text", .text, [3], []⟩)
      ⟨{ GovStore.empty ⟨[], 0⟩ ⟨0⟩ ⟨⟨0⟩, ⟨0⟩, ⟨0⟩⟩ with nextProposalID := some (2 ^ 64 - 1) }, ()⟩).store.proposals.lookup
      (2 ^ 64 - 1)).isSome = true := by decide +kernel
  refine ⟨GovStore.Wf.empty _ _ _ _, hnext, fun hwf => ?_⟩
  obtain ⟨n, hn, hbelow⟩ := hwf.next
  rw [hnext, Option.some.injEq] at hn
  subst hn
  exact Nat.not_lt_zero _ (hbelow _ (Option.isSome_iff_ne_none.1 hstored))

/-! ### How a proposal's life moves on -/

/-- The rank of a status in a proposal's life: collecting deposits, voted on, closed. -/
def ProposalStatus.rank : ProposalStatus → Nat
  | .depositPeriod => 0
  | .votingPeriod => 1
  | _ => 2

/-- What a write may change of a stored proposal: not its ID, what was proposed, when it was submitted
or until when it collects deposits; its status only moves forward. -/
structure Proposal.Advances (p p' : Proposal) : Prop where
  proposalID : p'.proposalID = p.proposalID
  title : p'.title = p.title
  description : p'.description = p.description
  proposalType : p'.proposalType = p.proposalType
  submitTime : p'.submitTime = p.submitTime
  depositEndTime : p'.depositEndTime = p.depositEndTime
  rank : p.status.rank ≤ p'.status.rank

namespace Proposal.Advances

theorem refl (p : Proposal) : p.Advances p := ⟨rfl, rfl, rfl, rfl, rfl, rfl, le_refl _⟩

theorem trans {p₁ p₂ p₃ : Proposal} (h₁ : p₁.Advances p₂) (h₂ : p₂.Advances p₃) : p₁.Advances p₃ :=
  ⟨h₂.proposalID.trans h₁.proposalID, h₂.title.trans h₁.title, h₂.description.trans h₁.description,
    h₂.proposalType.trans h₁.proposalType, h₂.submitTime.trans h₁.submitTime,
    h₂.depositEndTime.trans h₁.depositEndTime, h₁.rank.trans h₂.rank⟩

end Proposal.Advances

/-- The next proposal ID stays set, at the same or a larger value. -/
def NextGrows (next next' : Option Nat) : Prop := ∀ n, next = some n → ∃ n', next' = some n' ∧ n ≤ n'

theorem NextGrows.of_eq {next next' : Option Nat} (h : next' = next) : NextGrows next next' :=
  fun n hn => ⟨n, h.trans hn, le_refl n⟩

theorem NextGrows.trans {next₁ next₂ next₃ : Option Nat} (h₁ : NextGrows next₁ next₂)
    (h₂ : NextGrows next₂ next₃) : NextGrows next₁ next₃ := fun n hn => by
  obtain ⟨n₂, hn₂, hle₂⟩ := h₁ n hn
  obtain ⟨n₃, hn₃, hle₃⟩ := h₂ n₂ hn₂
  exact ⟨n₃, hn₃, hle₂.trans hle₃⟩

/-- How the store under an ID may move on: the next ID never goes back, an issued ID whose proposal is
gone stays free, a closed proposal stays as it is, and a stored proposal that is still stored has
advanced. -/
structure GovStore.Advances (st st' : GovStore) (id : Nat) : Prop where
  next : NextGrows st.nextProposalID st'.nextProposalID
  gone : ∀ n, st.nextProposalID = some n → id < n → st.proposals.lookup id = none →
    st'.proposals.lookup id = none
  closed : ∀ p, st.proposals.lookup id = some p → p.status.rank = 2 → st'.proposals.lookup id = some p
  stored : ∀ p p', st.proposals.lookup id = some p → st'.proposals.lookup id = some p' → p.Advances p'

namespace GovStore.Advances

variable {st st₁ st₂ st₃ st' : GovStore} {id : Nat}

theorem refl (st : GovStore) (id : Nat) : st.Advances st id :=
  ⟨NextGrows.of_eq rfl, fun _ _ _ h => h, fun _ h _ => h, fun p p' hp hp' => by
    rw [hp, Option.some.injEq] at hp'
    subst hp'
    exact Proposal.Advances.refl p⟩

/-- Two moves compose from a store in order: a proposal stored at the start and gone in the middle has
an ID below the next one there, so it is not stored again at the end. -/
theorem trans (hwf : st₁.Wf) (h₁ : st₁.Advances st₂ id) (h₂ : st₂.Advances st₃ id) :
    st₁.Advances st₃ id where
  next := h₁.next.trans h₂.next
  gone n hn hid hnone := by
    obtain ⟨n₂, hn₂, hle⟩ := h₁.next n hn
    exact h₂.gone n₂ hn₂ (lt_of_lt_of_le hid hle) (h₁.gone n hn hid hnone)
  closed p hp hrank := h₂.closed p (h₁.closed p hp hrank) hrank
  stored p p' hp hp' := by
    cases hp₂ : st₂.proposals.lookup id with
    | none =>
      obtain ⟨n, hn, hbelow⟩ := hwf.next
      have hid : id < n := hbelow id (by simp [hp])
      obtain ⟨n₂, hn₂, hle⟩ := h₁.next n hn
      rw [h₂.gone n₂ hn₂ (lt_of_lt_of_le hid hle) hp₂] at hp'
      cases hp'
    | some p₂ => exact (h₁.stored p p₂ hp hp₂).trans (h₂.stored p₂ p' hp₂ hp')

/-- A write that leaves the proposal under the ID as it was. -/
theorem of_lookup (hp : st'.proposals.lookup id = st.proposals.lookup id)
    (hnext : NextGrows st.nextProposalID st'.nextProposalID) : st.Advances st' id where
  next := hnext
  gone _ _ _ hnone := hp.trans hnone
  closed _ h _ := hp.trans h
  stored p p' h h' := by
    rw [hp, h, Option.some.injEq] at h'
    subst h'
    exact Proposal.Advances.refl p

theorem of_sameAt (hs : st.SameAt st' id) (hnext : NextGrows st.nextProposalID st'.nextProposalID) :
    st.Advances st' id :=
  of_lookup hs.proposal hnext

/-- A write that stores an advanced proposal in place of one still open. -/
theorem of_update {p p' : Proposal} (hp : st.proposals.lookup id = some p) (hopen : p.status.rank ≠ 2)
    (hp' : st'.proposals.lookup id = some p') (hadv : p.Advances p')
    (hnext : NextGrows st.nextProposalID st'.nextProposalID) : st.Advances st' id where
  next := hnext
  gone _ _ _ hnone := by simp [hp] at hnone
  closed p₀ h hrank := by
    rw [hp, Option.some.injEq] at h
    subst h
    exact absurd hrank hopen
  stored p₀ p₀' h h' := by
    rw [hp, Option.some.injEq] at h
    rw [hp', Option.some.injEq] at h'
    subst h h'
    exact hadv

/-- A write that deletes a proposal still open. -/
theorem of_erase (hopen : ∀ p, st.proposals.lookup id = some p → p.status.rank ≠ 2)
    (hp' : st'.proposals.lookup id = none) (hnext : NextGrows st.nextProposalID st'.nextProposalID) :
    st.Advances st' id where
  next := hnext
  gone _ _ _ _ := hp'
  closed p h hrank := absurd hrank (hopen p h)
  stored _ _ _ h' := by simp [hp'] at h'

end GovStore.Advances

/-! ### Each step moves the store on -/

namespace GovStore

variable {st : GovStore} {id : Nat}

/-- A deposit on a proposal that collects deposits or is voted on moves the store on under every ID:
under its own the proposal has a new total and, where its voting period starts, is voted on. -/
theorem advances_deposited (h : st.Wf) {p : Proposal} (hp : st.proposals.lookup id = some p)
    (hstatus : p.status = .depositPeriod ∨ p.status = .votingPeriod) (total : Coins) {activated : Bool}
    (hact : activated = true → p.status = .depositPeriod) (blockTime : Int) (a : AccAddress)
    (amount : Coins) (i : Nat) :
    st.Advances ((if activated then (st.setProposal { p with totalDeposit := total }).activated blockTime
        { p with totalDeposit := total }
      else st.setProposal { p with totalDeposit := total }).setDeposit id a amount) i := by
  have hid : p.proposalID = id := (h.slice id).keyed p hp
  have hnext : NextGrows st.nextProposalID ((if activated then
      (st.setProposal { p with totalDeposit := total }).activated blockTime { p with totalDeposit := total }
      else st.setProposal { p with totalDeposit := total }).setDeposit id a amount).nextProposalID :=
    NextGrows.of_eq (by cases activated <;> rfl)
  by_cases hi : i = id
  · subst hi
    have hopen : p.status.rank ≠ 2 := by rcases hstatus with hs | hs <;> simp [hs, ProposalStatus.rank]
    have hid' : ({ p with totalDeposit := total } : Proposal).proposalID = i := hid
    cases activated with
    | false =>
      rw [if_neg Bool.false_ne_true] at hnext ⊢
      have hp' : (st.setProposal { p with totalDeposit := total }).proposals.lookup i =
          some { p with totalDeposit := total } := by
        rw [← hid']
        exact setProposal_lookup_self _
      exact Advances.of_update hp hopen hp' ⟨rfl, rfl, rfl, rfl, rfl, rfl, le_refl _⟩ hnext
    | true =>
      rw [if_pos rfl] at hnext ⊢
      have hrank : p.status.rank ≤ ProposalStatus.votingPeriod.rank := by
        simp [hact rfl, ProposalStatus.rank]
      exact Advances.of_update hp hopen (activated_lookup _ blockTime hid') ⟨rfl, rfl, rfl, rfl, rfl, rfl, hrank⟩
        hnext
  · exact Advances.of_sameAt (sameAt_deposited hid total activated blockTime a amount hi) hnext

/-- A new proposal under the next ID, which moves on by one, moves the store on under every ID: its own
ID was free and never issued. -/
theorem advances_newProposal (h : st.Wf) {n : Nat} (hnext : st.nextProposalID = some n)
    (hroom : n + 1 < 2 ^ 64) {p : Proposal} (hid : p.proposalID = n) (i : Nat) :
    st.Advances ((({ st with nextProposalID := some ((n + 1) % 2 ^ 64) } : GovStore).setProposal p).insertQueue
      .inactive p.depositEndTime n) i := by
  rw [Nat.mod_eq_of_lt hroom]
  have hgrows : NextGrows st.nextProposalID (some (n + 1)) := fun n' hn' => by
    rw [hnext, Option.some.injEq] at hn'
    exact ⟨n + 1, rfl, by omega⟩
  by_cases hi : i = n
  · subst hi
    obtain ⟨n', hn', hbelow⟩ := h.next
    rw [hnext, Option.some.injEq] at hn'
    subst hn'
    -- the ID was never issued, so nothing was stored under it
    have hfree : st.proposals.lookup i = none := by
      by_contra hne
      exact lt_irrefl i (hbelow i hne)
    refine ⟨hgrows, fun n' hn' hlt _ => ?_, fun p' hp' => ?_, fun p' _ hp' => ?_⟩
    · rw [hnext, Option.some.injEq] at hn'
      omega
    · simp [hfree] at hp'
    · simp [hfree] at hp'
  · have hsame := (sameAt_nextProposalID st (some (n + 1)) i).trans
      ((sameAt_setProposal _ (hid ▸ hi)).trans (sameAt_insertQueue _ .inactive p.depositEndTime hi))
    exact Advances.of_sameAt hsame hgrows

end GovStore

section Handlers

variable {blockTime : Int}

theorem addVote_advances {proposalID : Nat} {voterAddr : AccAddress} {option : VoteOption}
    {r : Except Error Unit} (h : addVote k proposalID voterAddr option s = .ok (r, s')) (id : Nat) :
    s.store.Advances s'.store id := by
  rcases addVote_eq_ok h with rfl | ⟨_, -, -, -, rfl⟩
  · exact GovStore.Advances.refl _ id
  · exact GovStore.Advances.of_lookup rfl (NextGrows.of_eq rfl)

theorem addDeposit_advances (hwf : s.store.Wf) {proposalID : Nat} {depositorAddr : AccAddress}
    {depositAmount : Coins} {r : Except Error Bool}
    (h : addDeposit k blockTime proposalID depositorAddr depositAmount s = .ok (r, s')) (id : Nat) :
    s.store.Advances s'.store id := by
  rcases addDeposit_eq_ok h with ⟨-, -, hstore, -⟩ |
    ⟨p, total, amount, activated, -, hp, hstatus, -, -, hact, -, hstore⟩
  · rw [hstore]
    exact GovStore.Advances.refl _ id
  · rw [hstore]
    exact GovStore.advances_deposited hwf hp hstatus total hact blockTime depositorAddr amount id

theorem newTextProposal_advances (hwf : s.store.Wf) (hroom : s.store.RoomFor 1) {title description : String}
    {proposalType : ProposalKind} {r : Option Proposal}
    (h : newTextProposal k blockTime title description proposalType s = .ok (r, s')) (id : Nat) :
    s.store.Advances s'.store id := by
  rcases newTextProposal_eq_ok h with ⟨-, rfl⟩ | ⟨n, p, hnext, -, hid, -, -, -, rfl⟩
  · exact GovStore.Advances.refl _ id
  · obtain ⟨n', hn', hlt⟩ := hroom
    rw [hnext, Option.some.injEq] at hn'
    subst hn'
    exact GovStore.advances_newProposal hwf hnext hlt hid id

theorem handler_advances (hwf : s.store.Wf) {msg : Msg} (hroom : s.store.RoomFor msg.newProposalIDs)
    {r : Result} (h : handler k blockTime msg s = .ok (r, s')) (id : Nat) : s.store.Advances s'.store id := by
  cases msg with
  | deposit msg =>
    obtain ⟨_, h⟩ := handleMsgDeposit_eq_ok h
    exact addDeposit_advances hwf h id
  | submitProposal msg =>
    obtain ⟨p, s₁, _, h₁, h⟩ := handleMsgSubmitProposal_eq_ok h
    exact (newTextProposal_advances hwf hroom h₁ id).trans hwf
      (addDeposit_advances (newTextProposal_wf hwf hroom h₁) h id)
  | vote msg =>
    obtain ⟨_, h⟩ := handleMsgVote_eq_ok h
    exact addVote_advances h id

end Handlers

/-- The end blocker moves the store on under every ID: a proposal it drops was collecting deposits, and
one it tallies was voted on and is stored passed or rejected. -/
theorem endBlocker_advances {blockTime : Int} {stake : Staking.Store AccAddress} {tags : Tags}
    (hwf : s.store.Wf) (h : endBlocker k blockTime stake s = .ok (tags, s')) (id : Nat) :
    s.store.Advances s'.store id := by
  obtain ⟨verdict, hdropped, htallied, hsame, hglobals, -, -⟩ := endBlocker_eq_ok hwf h
  have hnext : NextGrows s.store.nextProposalID s'.store.nextProposalID := NextGrows.of_eq hglobals.next
  by_cases hi : id ∈ s.store.queueUpTo .inactive blockTime
  · obtain ⟨p, hp, hstatus, -⟩ := hwf.mem_queueUpTo.1 hi
    refine GovStore.Advances.of_erase (fun p' hp' => ?_) (hdropped id hi).proposal hnext
    rw [hp, Option.some.injEq] at hp'
    subst hp'
    simp [hstatus, ProposalQueue.status, ProposalStatus.rank]
  by_cases ha : id ∈ s.store.queueUpTo .active blockTime
  · obtain ⟨p, result, gov, hp, -, hp'⟩ := (htallied id ha).tallied
    obtain ⟨p₀, hp₀, hstatus, -⟩ := hwf.mem_queueUpTo.1 ha
    rw [hp, Option.some.injEq] at hp₀
    subst hp₀
    have hvoting : p.status = .votingPeriod := hstatus
    have hrank : p.status.rank ≤ (if verdict id then ProposalStatus.passed else .rejected).rank := by
      cases verdict id <;> simp [hvoting, ProposalStatus.rank]
    exact GovStore.Advances.of_update hp (by simp [hvoting, ProposalStatus.rank]) hp'
      ⟨rfl, rfl, rfl, rfl, rfl, rfl, hrank⟩ hnext
  · exact GovStore.Advances.of_sameAt (hsame id hi ha) hnext

theorem Step.advances (hwf : s.store.Wf) (hroom : s.store.RoomFor e.newProposalIDs) (h : Step k s e s')
    (id : Nat) : s.store.Advances s'.store id := by
  cases h with
  | deliver blockTime msg =>
    rcases deliverMsg_eq k blockTime msg s with heq | ⟨_, hrun⟩
    · rw [heq]
      exact GovStore.Advances.refl _ id
    · exact handler_advances hwf hroom hrun id
  | endBlock h => exact endBlocker_advances hwf h id
  | bank bank => exact GovStore.Advances.refl _ id

/-- Along every run from a store in order with room for the proposals it submits, under every ID: the
next ID never goes back, an issued ID whose proposal is gone is never used again, a passed or rejected
proposal is never changed again, and a proposal stored at both ends kept its ID, what was proposed, its
submit time and its deposit end time, with its status never gone back. -/
theorem run_advances {es : List Event} (hwf : s.store.Wf)
    (hroom : s.store.RoomFor (es.map Event.newProposalIDs).sum) (hrun : Run (Step k) s es s') (id : Nat) :
    s.store.Advances s'.store id :=
  (run_invariant (fun h => h) (I := fun s₁ => s.store.Advances s₁.store id)
    (fun _ _ _ hwf₁ hroom₁ hadv hstep => hadv.trans hwf (hstep.advances hwf₁ hroom₁ id)) hwf hroom hrun
    (.refl _ id)).2

/-- Over the sample chain's run, proposal 2 moves on from unissued to voted on to rejected. -/
theorem run_advances_sample :
    sampleGenesis.store.Wf ∧
      sampleGenesis.store.RoomFor ((sampleMessages ++ [Event.endBlock 5 sampleStake]).map Event.newProposalIDs).sum ∧
      ∃ s', Run (Step sampleKeeper) sampleGenesis (sampleMessages ++ [Event.endBlock 5 sampleStake]) s' ∧
        sampleGenesis.store.Advances s'.store 2 := by
  have h₀ : sampleGenesis.store.Wf := GovStore.Wf.empty _ _ _ 1
  have hroom : sampleGenesis.store.RoomFor
      ((sampleMessages ++ [Event.endBlock 5 sampleStake]).map Event.newProposalIDs).sum := ⟨1, rfl, by decide⟩
  obtain ⟨s', hrun⟩ := run_sampleBlock
  exact ⟨h₀, hroom, s', hrun, run_advances h₀ hroom hrun 2⟩

end CosmosSdk.Gov
