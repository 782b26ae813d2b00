import CosmosSdk.Gov.Handler

/-!
# The invariant of the governance store

What the governance store holds in every state the chain reaches, read off the writes of the keeper:

* a proposal is stored under its own ID, and IDs below the next one only;
* a proposal is in the queue of its status, under its end time there, and nowhere else: the inactive
  queue while it collects deposits, the active one while it is voted on, none after;
* deposits are held only for a proposal that collects deposits or is voted on, and votes only for one
  that is voted on, each vote record under its own proposal ID and voter.

`GovStore.SliceOK st id` is the part under one ID, and `GovStore.Wf` the whole.  Every write of the keeper
but `getNewProposalID`'s touches one ID, so each handler keeps the invariant by a lemma at the ID it
touches (`SliceOK.setTotalDeposit`, `SliceOK.activated`, `SliceOK.setDeposit`, `SliceOK.setVote`,
`SliceOK.newProposal`) and `SameAt` everywhere else (`Wf.of_touch`).

`getNewProposalID` moves the next ID on as a `uint64`, which wraps to zero after `2^64 - 1`; a new
proposal then lands on an ID already issued.  The invariant is kept where the next ID has room for the
proposals submitted (`GovStore.RoomFor`).
-/

namespace CosmosSdk.Gov

open CosmosSdk.Types Auth StateExcept

/-- The entry a proposal has in the queue `q` at the time `t`: its ID, when `q` is the queue of its status
and `t` its end time there. -/
def queueEntry (q : ProposalQueue) (t : Int) (p : Proposal) : Option Nat :=
  if p.status = q.status ∧ q.endTime p = t then some p.proposalID else none

namespace GovStore

/-- The store in order under one proposal ID: the proposal keyed by its own ID, the queue entries its
status and end times ask for and no others, deposits only while it collects deposits or is voted on,
and votes only while it is voted on, each record holding the voter and the ID of its key. -/
structure SliceOK (st : GovStore) (id : Nat) : Prop where
  keyed : ∀ p, st.proposals.lookup id = some p → p.proposalID = id
  queue : ∀ q t, (st.queue q).lookup (toLex (t, id)) = (st.proposals.lookup id).bind (queueEntry q t)
  deposit : ∀ a c, st.deposits.lookup (id, a) = some c →
    ∃ p, st.proposals.lookup id = some p ∧ (p.status = .depositPeriod ∨ p.status = .votingPeriod)
  voteKeyed : ∀ a v, st.votes.lookup (id, a) = some v → v.voter = a ∧ v.proposalID = id
  vote : ∀ a v, st.votes.lookup (id, a) = some v →
    ∃ p, st.proposals.lookup id = some p ∧ p.status = .votingPeriod

/-- The store of a running chain: the next ID is set and above every stored proposal's, and the store
is in order under every ID. -/
structure Wf (st : GovStore) : Prop where
  next : ∃ n, st.nextProposalID = some n ∧ ∀ id, st.proposals.lookup id ≠ none → id < n
  slice : ∀ id, st.SliceOK id

/-- Room for `m` more proposals: the next ID is set, and moving it on `m` times keeps it below `2^64`. -/
def RoomFor (st : GovStore) (m : Nat) : Prop := ∃ n, st.nextProposalID = some n ∧ n + m < 2 ^ 64

theorem RoomFor.mono {st : GovStore} {m m' : Nat} (h : st.RoomFor m) (hle : m' ≤ m) : st.RoomFor m' := by
  obtain ⟨n, hn, hlt⟩ := h
  exact ⟨n, hn, by omega⟩

end GovStore

/-- The proposal IDs a message may take: one for a new proposal. -/
def Msg.newProposalIDs : Msg → Nat
  | .submitProposal _ => 1
  | .deposit _ | .vote _ => 0

namespace GovStore

variable {st st' : GovStore} {id : Nat}

@[simp] theorem insertQueue_lookup (q q' : ProposalQueue) (endTime t : Int) (i j : Nat) :
    ((st.insertQueue q endTime i).queue q').lookup (toLex (t, j)) =
      if q' = q ∧ t = endTime ∧ j = i then some i else (st.queue q').lookup (toLex (t, j)) := by
  rw [insertQueue_queue]
  by_cases hq : q' = q
  · subst hq
    rw [Function.update_self]
    by_cases hk : t = endTime ∧ j = i
    · obtain ⟨rfl, rfl⟩ := hk
      simp
    · rw [Finmap.lookup_insert_of_ne _ fun he => hk (by simpa using he)]
      simp [hk]
  · simp [hq]

@[simp] theorem removeFromQueue_lookup (q q' : ProposalQueue) (endTime t : Int) (i j : Nat) :
    ((st.removeFromQueue q endTime i).queue q').lookup (toLex (t, j)) =
      if q' = q ∧ t = endTime ∧ j = i then none else (st.queue q').lookup (toLex (t, j)) := by
  rw [removeFromQueue_queue]
  by_cases hq : q' = q
  · subst hq
    rw [Function.update_self]
    by_cases hk : t = endTime ∧ j = i
    · obtain ⟨rfl, rfl⟩ := hk
      simp
    · rw [Finmap.lookup_erase_ne fun he => hk (by simpa using he)]
      simp [hk]
  · simp [hq]

@[simp] theorem setProposal_lookup_self (p : Proposal) :
    (st.setProposal p).proposals.lookup p.proposalID = some p := by
  simp

/-! ### The slice under one ID -/

namespace SliceOK

theorem of_sameAt (h : st.SliceOK id) (hs : st.SameAt st' id) : st'.SliceOK id where
  keyed p hp := h.keyed p (hs.proposal ▸ hp)
  queue q t := by rw [hs.queue, hs.proposal, h.queue]
  deposit a c hc := by
    rw [hs.proposal]
    exact h.deposit a c (hs.deposit a ▸ hc)
  voteKeyed a v hv := h.voteKeyed a v (hs.vote a ▸ hv)
  vote a v hv := by
    rw [hs.proposal]
    exact h.vote a v (hs.vote a ▸ hv)

theorem queue_eq_none (h : st.SliceOK id) (hp : st.proposals.lookup id = none) (q : ProposalQueue)
    (t : Int) : (st.queue q).lookup (toLex (t, id)) = none := by
  rw [h.queue, hp]
  rfl

theorem deposit_eq_none (h : st.SliceOK id)
    (hp : ∀ p, st.proposals.lookup id = some p → p.status ≠ .depositPeriod ∧ p.status ≠ .votingPeriod)
    (a : AccAddress) : st.deposits.lookup (id, a) = none := by
  by_contra hne
  obtain ⟨c, hc⟩ := Option.ne_none_iff_exists'.1 hne
  obtain ⟨p, hfound, hstatus⟩ := h.deposit a c hc
  exact hstatus.elim (hp p hfound).1 (hp p hfound).2

theorem vote_eq_none (h : st.SliceOK id)
    (hp : ∀ p, st.proposals.lookup id = some p → p.status ≠ .votingPeriod)
    (a : AccAddress) : st.votes.lookup (id, a) = none := by
  by_contra hne
  obtain ⟨o, ho⟩ := Option.ne_none_iff_exists'.1 hne
  obtain ⟨p, hfound, hstatus⟩ := h.vote a o ho
  exact hp p hfound hstatus

/-- An ID whose proposal is gone, or neither collects deposits nor is voted on, is in order once it is
in no queue and holds no deposit and no vote. -/
theorem of_closed
    (hp : ∀ p, st.proposals.lookup id = some p →
      p.proposalID = id ∧ p.status ≠ .depositPeriod ∧ p.status ≠ .votingPeriod)
    (hq : ∀ q t, (st.queue q).lookup (toLex (t, id)) = none)
    (hd : ∀ a, st.deposits.lookup (id, a) = none) (hv : ∀ a, st.votes.lookup (id, a) = none) :
    st.SliceOK id where
  keyed p hfound := (hp p hfound).1
  queue q t := by
    rw [hq]
    cases hfound : st.proposals.lookup id with
    | none => rfl
    | some p =>
      obtain ⟨-, hdeposit, hvoting⟩ := hp p hfound
      cases q <;> simp [queueEntry, ProposalQueue.status, hdeposit, hvoting]
  deposit a c hc := by simp [hd a] at hc
  voteKeyed a v hv' := by simp [hv a] at hv'
  vote a v hv' := by simp [hv a] at hv'

/-- A new total deposit keeps the slice in order: it changes neither the status nor the end times. -/
theorem setTotalDeposit (h : st.SliceOK id) {p : Proposal} (hp : st.proposals.lookup id = some p)
    (c : Coins) : (st.setProposal { p with totalDeposit := c }).SliceOK id := by
  have hid : p.proposalID = id := h.keyed p hp
  have hfound : (st.setProposal { p with totalDeposit := c }).proposals.lookup id =
      some { p with totalDeposit := c } := by
    rw [← hid]
    exact setProposal_lookup_self _
  refine ⟨fun p' hp' => ?_, fun q t => ?_, fun a c' hc => ?_, h.voteKeyed, fun a v hv => ?_⟩
  · rw [hfound] at hp'
    cases hp'
    exact hid
  · rw [hfound, setProposal_queue, h.queue, hp]
    cases q <;> rfl
  · obtain ⟨p', hp', hstatus⟩ := h.deposit a c' hc
    rw [hp] at hp'
    cases hp'
    exact ⟨_, hfound, hstatus⟩
  · obtain ⟨p', hp', hstatus⟩ := h.vote a v hv
    rw [hp] at hp'
    cases hp'
    exact ⟨_, hfound, hstatus⟩

/-- `activateVotingPeriod` keeps the slice of a proposal collecting deposits in order: it leaves the
inactive queue at its deposit end time, its only entry, for the active one at its new voting end
time. -/
theorem activated (h : st.SliceOK id) {p : Proposal} (hp : st.proposals.lookup id = some p)
    (hstatus : p.status = .depositPeriod) (blockTime : Int) :
    (st.activated blockTime p).SliceOK id := by
  have hid : p.proposalID = id := h.keyed p hp
  subst hid
  set p₁ : Proposal := { p with votingStartTime := blockTime,
                                votingEndTime := blockTime + st.votingParams.votingPeriod,
                                status := .votingPeriod }
  have hfound : (st.setProposal p₁).proposals.lookup p.proposalID = some p₁ := setProposal_lookup_self p₁
  refine ⟨fun p' hp' => ?_, fun q t => ?_, fun a c hc => ?_, h.voteKeyed, fun a v hv => ?_⟩
  · simp only [GovStore.activated, insertQueue_proposals, removeFromQueue_proposals] at hp'
    rw [hfound] at hp'
    cases hp'
    rfl
  · simp only [GovStore.activated, insertQueue_proposals, removeFromQueue_proposals,
      insertQueue_lookup, removeFromQueue_lookup, setProposal_queue, h.queue, hp]
    cases q <;> simp [queueEntry, ProposalQueue.status, ProposalQueue.endTime, hstatus, eq_comm]
  · simp only [GovStore.activated, insertQueue_proposals, removeFromQueue_proposals]
    exact ⟨p₁, hfound, .inr rfl⟩
  · -- a proposal collecting deposits holds no vote
    obtain ⟨p', hp', hvoting⟩ := h.vote a v hv
    rw [hp] at hp'
    cases hp'
    simp [hstatus] at hvoting

theorem setDeposit (h : st.SliceOK id) {p : Proposal} (hp : st.proposals.lookup id = some p)
    (hstatus : p.status = .depositPeriod ∨ p.status = .votingPeriod) (a : AccAddress) (c : Coins) :
    (st.setDeposit id a c).SliceOK id where
  keyed := h.keyed
  queue := h.queue
  deposit a' c' hc := by
    by_cases ha : a' = a
    · subst ha
      exact ⟨p, hp, hstatus⟩
    · rw [setDeposit_deposits, Finmap.lookup_insert_of_ne _ (by simp [ha])] at hc
      exact h.deposit a' c' hc
  voteKeyed := h.voteKeyed
  vote := h.vote

/-- The vote `AddVote` writes, a record of the voter and the proposal ID it is filed under. -/
theorem setVote (h : st.SliceOK id) {p : Proposal} (hp : st.proposals.lookup id = some p)
    (hstatus : p.status = .votingPeriod) (a : AccAddress) (o : VoteOption) :
    (st.setVote id a ⟨a, id, o⟩).SliceOK id where
  keyed := h.keyed
  queue := h.queue
  deposit := h.deposit
  voteKeyed a' v hv := by
    by_cases ha : a' = a
    · subst ha
      rw [setVote_votes, Finmap.lookup_insert, Option.some.injEq] at hv
      exact ⟨hv ▸ rfl, hv ▸ rfl⟩
    · rw [setVote_votes, Finmap.lookup_insert_of_ne _ (by simp [ha])] at hv
      exact h.voteKeyed a' v hv
  vote a' v hv := by
    by_cases ha : a' = a
    · subst ha
      exact ⟨p, hp, hstatus⟩
    · rw [setVote_votes, Finmap.lookup_insert_of_ne _ (by simp [ha])] at hv
      exact h.vote a' v hv

/-- A new proposal collecting deposits, under a free ID, in the inactive queue at its deposit end
time. -/
theorem newProposal (h : st.SliceOK id) (hnone : st.proposals.lookup id = none) {p : Proposal}
    (hid : p.proposalID = id) (hstatus : p.status = .depositPeriod) :
    ((st.setProposal p).insertQueue .inactive p.depositEndTime id).SliceOK id := by
  subst hid
  have hfound : (st.setProposal p).proposals.lookup p.proposalID = some p := setProposal_lookup_self p
  refine ⟨fun p' hp' => ?_, fun q t => ?_, fun a c hc => ?_, h.voteKeyed, fun a v hv => ?_⟩
  · rw [insertQueue_proposals, hfound] at hp'
    cases hp'
    rfl
  · rw [insertQueue_lookup, insertQueue_proposals, hfound, setProposal_queue,
      h.queue_eq_none hnone]
    cases q <;> simp [queueEntry, ProposalQueue.status, ProposalQueue.endTime, hstatus, eq_comm]
  · obtain ⟨p', hp', -⟩ := h.deposit a c hc
    simp [hnone] at hp'
  · obtain ⟨p', hp', -⟩ := h.vote a v hv
    simp [hnone] at hp'

end SliceOK

theorem sameAt_activated (blockTime : Int) {p : Proposal} (h : id ≠ p.proposalID) :
    st.SameAt (st.activated blockTime p) id := by
  refine SameAt.trans (SameAt.trans ?_ (sameAt_removeFromQueue _ _ _ h)) (sameAt_insertQueue _ _ _ h)
  exact sameAt_setProposal st h

theorem sameAt_nextProposalID (st : GovStore) (next : Option Nat) (id : Nat) :
    st.SameAt { st with nextProposalID := next } id :=
  ⟨rfl, fun _ _ => rfl, fun _ => rfl, fun _ => rfl⟩

theorem activated_lookup (st : GovStore) (blockTime : Int) {p : Proposal} (hid : p.proposalID = id) :
    (st.activated blockTime p).proposals.lookup id =
      some { p with votingStartTime := blockTime,
                    votingEndTime := blockTime + st.votingParams.votingPeriod,
                    status := .votingPeriod } := by
  subst hid
  simp [GovStore.activated]

/-! ### The whole store -/

/-- The store before `InitGenesis`: the next ID not set, nothing stored, under the given parameters. -/
def empty (depositParams : DepositParams) (votingParams : VotingParams) (tallyParams : TallyParams) :
    GovStore where
  proposals := ∅
  nextProposalID := none
  deposits := ∅
  votes := ∅
  queue _ := ∅
  depositParams := depositParams
  votingParams := votingParams
  tallyParams := tallyParams

/-- A store that holds only its next ID is in order. -/
theorem Wf.empty (depositParams : DepositParams) (votingParams : VotingParams) (tallyParams : TallyParams)
    (n : Nat) : ({ GovStore.empty depositParams votingParams tallyParams with nextProposalID := some n }).Wf :=
  ⟨⟨n, rfl, fun _ hid => absurd (Finmap.lookup_empty _) hid⟩, fun _ =>
    SliceOK.of_closed (fun _ hp => by simp [GovStore.empty] at hp) (fun _ _ => Finmap.lookup_empty _)
      (fun _ => Finmap.lookup_empty _) (fun _ => Finmap.lookup_empty _)⟩

/-- A write under one ID that keeps the slice there in order and stores a proposal there only where one
was stored keeps the invariant. -/
theorem Wf.of_touch (h : st.Wf) (i : Nat) (hsame : ∀ id, id ≠ i → st.SameAt st' id)
    (hi : st'.SliceOK i) (hnext : st'.nextProposalID = st.nextProposalID)
    (hstored : st'.proposals.lookup i ≠ none → st.proposals.lookup i ≠ none) : st'.Wf := by
  obtain ⟨n, hn, hbelow⟩ := h.next
  refine ⟨⟨n, hnext.trans hn, fun id hid => hbelow id ?_⟩, fun id => ?_⟩
  · by_cases hi' : id = i
    · subst hi'
      exact hstored hid
    · rwa [← (hsame id hi').proposal]
  · by_cases hi' : id = i
    · subst hi'
      exact hi
    · exact (h.slice id).of_sameAt (hsame id hi')

/-- The store of a new proposal under the next ID, which moves on by one without wrapping. -/
theorem Wf.newProposal (h : st.Wf) {n : Nat} (hnext : st.nextProposalID = some n) (hroom : n + 1 < 2 ^ 64)
    {p : Proposal} (hid : p.proposalID = n) (hstatus : p.status = .depositPeriod) :
    ((({ st with nextProposalID := some ((n + 1) % 2 ^ 64) } : GovStore).setProposal p).insertQueue .inactive
      p.depositEndTime n).Wf := by
  rw [Nat.mod_eq_of_lt hroom]
  obtain ⟨n', hn', hbelow⟩ := h.next
  rw [hnext, Option.some.injEq] at hn'
  subst hn'
  have hfree : st.proposals.lookup n = none := by
    by_contra hne
    exact lt_irrefl n (hbelow n hne)
  refine ⟨⟨n + 1, rfl, fun id hfound => ?_⟩, fun id => ?_⟩
  · by_cases hi : id = n
    · omega
    · rw [insertQueue_proposals, setProposal_proposals, hid, Finmap.lookup_insert_of_ne _ hi] at hfound
      exact Nat.lt_succ_of_lt (hbelow id hfound)
  · by_cases hi : id = n
    · subst hi
      have hslice := (h.slice id).of_sameAt (sameAt_nextProposalID st (some (id + 1)) id)
      exact hslice.newProposal hfree hid hstatus
    · have hsame := (sameAt_nextProposalID st (some (n + 1)) id).trans
        ((sameAt_setProposal _ (hid ▸ hi)).trans (sameAt_insertQueue _ .inactive p.depositEndTime hi))
      exact (h.slice id).of_sameAt hsame

/-- A deposit touches its proposal's ID only. -/
theorem sameAt_deposited {p : Proposal} (hid : p.proposalID = id) (total : Coins) (activated : Bool)
    (blockTime : Int) (a : AccAddress) (amount : Coins) {i : Nat} (hi : i ≠ id) :
    st.SameAt ((if activated then (st.setProposal { p with totalDeposit := total }).activated blockTime
        { p with totalDeposit := total }
      else st.setProposal { p with totalDeposit := total }).setDeposit id a amount) i := by
  have hsame : st.SameAt (st.setProposal { p with totalDeposit := total }) i := sameAt_setProposal st (hid ▸ hi)
  cases activated with
  | false =>
    rw [if_neg Bool.false_ne_true]
    exact hsame.trans (sameAt_setDeposit _ _ _ hi)
  | true =>
    rw [if_pos rfl]
    exact (hsame.trans (sameAt_activated _ (hid ▸ hi))).trans (sameAt_setDeposit _ _ _ hi)

/-- The store after a deposit on a proposal that collects deposits or is voted on: its new total, its
voting period started where the deposit says so, and the depositor's deposit. -/
theorem Wf.deposited (h : st.Wf) {p : Proposal} (hp : st.proposals.lookup id = some p)
    (hstatus : p.status = .depositPeriod ∨ p.status = .votingPeriod) (total : Coins) {activated : Bool}
    (hact : activated = true → p.status = .depositPeriod) (blockTime : Int) (a : AccAddress)
    (amount : Coins) :
    ((if activated then (st.setProposal { p with totalDeposit := total }).activated blockTime
        { p with totalDeposit := total }
      else st.setProposal { p with totalDeposit := total }).setDeposit id a amount).Wf := by
  have hid : p.proposalID = id := (h.slice id).keyed p hp
  have hslice := (h.slice id).setTotalDeposit hp total
  have hfound : (st.setProposal { p with totalDeposit := total }).proposals.lookup id =
      some { p with totalDeposit := total } := by
    rw [← hid]
    exact setProposal_lookup_self _
  refine h.of_touch id (fun i hi => sameAt_deposited hid total activated blockTime a amount hi) ?_
    (by cases activated <;> rfl) (fun _ => by simp [hp])
  cases activated with
  | false =>
    rw [if_neg Bool.false_ne_true]
    exact hslice.setDeposit hfound hstatus a amount
  | true =>
    rw [if_pos rfl]
    -- the voting period starts: the proposal is voted on when the deposit is written
    have hid' : ({ p with totalDeposit := total } : Proposal).proposalID = id := hid
    exact (hslice.activated hfound (hact rfl) blockTime).setDeposit (activated_lookup _ blockTime hid')
      (.inr rfl) a amount

end GovStore

/-! ### The keeper and the handler keep the invariant -/

variable {β : Type} {k : Keeper β} {s s' : GovState β}

theorem addVote_wf (hwf : s.store.Wf) {proposalID : Nat} {voterAddr : AccAddress} {option : VoteOption}
    {r : Except Error Unit} (h : addVote k proposalID voterAddr option s = .ok (r, s')) : s'.store.Wf := by
  rcases addVote_eq_ok h with rfl | ⟨p, hp, hstatus, -, rfl⟩
  · exact hwf
  · exact hwf.of_touch proposalID (fun i hi => GovStore.sameAt_setVote _ _ _ hi)
      ((hwf.slice proposalID).setVote hp hstatus _ _) rfl fun hne => hne

theorem addDeposit_wf (hwf : s.store.Wf) {blockTime : Int} {proposalID : Nat}
    {depositorAddr : AccAddress} {depositAmount : Coins} {r : Except Error Bool}
    (h : addDeposit k blockTime proposalID depositorAddr depositAmount s = .ok (r, s')) : s'.store.Wf := by
  rcases addDeposit_eq_ok h with ⟨-, -, hstore, -⟩ |
    ⟨p, total, amount, activated, -, hp, hstatus, -, -, hact, -, hstore⟩
  · rw [hstore]
    exact hwf
  · rw [hstore]
    exact hwf.deposited hp hstatus total hact blockTime depositorAddr amount

theorem newTextProposal_wf (hwf : s.store.Wf) (hroom : s.store.RoomFor 1) {blockTime : Int}
    {title description : String} {proposalType : ProposalKind} {r : Option Proposal}
    (h : newTextProposal k blockTime title description proposalType s = .ok (r, s')) : s'.store.Wf := by
  rcases newTextProposal_eq_ok h with ⟨-, rfl⟩ | ⟨n, p, hnext, -, hid, hstatus, -, -, rfl⟩
  · exact hwf
  · obtain ⟨n', hn', hlt⟩ := hroom
    rw [hnext, Option.some.injEq] at hn'
    subst hn'
    exact hwf.newProposal hnext hlt hid hstatus

theorem handler_wf (hwf : s.store.Wf) {blockTime : Int} {msg : Msg} (hroom : s.store.RoomFor msg.newProposalIDs)
    {r : Result} (h : handler k blockTime msg s = .ok (r, s')) : s'.store.Wf := by
  cases msg with
  | deposit msg =>
    obtain ⟨_, h⟩ := handleMsgDeposit_eq_ok h
    exact addDeposit_wf hwf h
  | submitProposal msg =>
    obtain ⟨p, s₁, _, h₁, h⟩ := handleMsgSubmitProposal_eq_ok h
    exact addDeposit_wf (newTextProposal_wf hwf hroom h₁) h
  | vote msg =>
    obtain ⟨_, h⟩ := handleMsgVote_eq_ok h
    exact addVote_wf hwf h

/-- A message as `runTx` delivers it in a transaction of its own: a message that `ValidateBasic`
rejects is not run; otherwise the handler's writes are kept when its result is OK, and a failed result
or a panic leaves the state as it was. -/
def deliverMsg (k : Keeper β) (blockTime : Int) (msg : Msg) (s : GovState β) : GovState β :=
  match msg.validateBasic with
  | some _ => s
  | none =>
    match handler k blockTime msg s with
    | .ok (result, s') => if result.isOK then s' else s
    | .error _ => s

/-- A delivered message leaves the state as it was, or is a run of the handler that returns. -/
theorem deliverMsg_eq (k : Keeper β) (blockTime : Int) (msg : Msg) (s : GovState β) :
    deliverMsg k blockTime msg s = s ∨
      ∃ result, handler k blockTime msg s = .ok (result, deliverMsg k blockTime msg s) := by
  cases hvalid : msg.validateBasic with
  | some err => exact .inl (by simp [deliverMsg, hvalid])
  | none =>
    cases h : handler k blockTime msg s with
    | error => exact .inl (by simp [deliverMsg, hvalid, h])
    | ok rs =>
      obtain ⟨result, s'⟩ := rs
      by_cases hok : result.isOK
      · exact .inr ⟨result, by simp [deliverMsg, hvalid, h, hok]⟩
      · exact .inl (by simp [deliverMsg, hvalid, h, hok])

theorem deliverMsg_wf (hwf : s.store.Wf) {blockTime : Int} {msg : Msg}
    (hroom : s.store.RoomFor msg.newProposalIDs) : (deliverMsg k blockTime msg s).store.Wf := by
  rcases deliverMsg_eq k blockTime msg s with heq | ⟨_, hrun⟩
  · rw [heq]
    exact hwf
  · exact handler_wf hwf hroom hrun

/-! ### A chain with two proposals -/

/-- A keeper whose deposits are held by the account `[1]` and burned to `[2]`, through the bank. -/
def sampleKeeper : Keeper Bank.State := ⟨"gov", [1], [2], fun _ => "", Bank.BaseKeeper.sendCoins⟩

/-- A new chain: a minimum deposit of `5atom` within three time units, a voting period of two, and the
accounts `[3]` and `[4]` holding `10atom` each. -/
def sampleGenesis : GovState Bank.State :=
  ⟨{ GovStore.empty ⟨[⟨"atom", 5⟩], 3⟩ ⟨2⟩ ⟨⟨0⟩, ⟨0⟩, ⟨0⟩⟩ with nextProposalID := some 1 },
    ⟨(Auth.Store.empty.setAccount (.base ⟨[3], [⟨"atom", 10⟩], none, 0, 0⟩)).setAccount
      (.base ⟨[4], [⟨"atom", 10⟩], none, 1, 0⟩), true⟩⟩

/-- At time 1, `[3]` submits proposal 1 with `2atom`, short of the minimum, and `[4]` submits proposal 2
with `5atom`, which starts its voting period; at time 2, `[4]` votes yes on it and deposits `1atom`
more. -/
def sampleChain : GovState Bank.State :=
  deliverMsg sampleKeeper 2 (.deposit ⟨2, [4], [⟨"atom", 1⟩]⟩) <|
  deliverMsg sampleKeeper 2 (.vote ⟨2, [4], .yes⟩) <|
  deliverMsg sampleKeeper 1 (.submitProposal ⟨"title", "text", .text, [4], [⟨"atom", 5⟩]⟩) <|
  deliverMsg sampleKeeper 1 (.submitProposal ⟨"title", "text", .text, [3], [⟨"atom", 2⟩]⟩) sampleGenesis

theorem sampleChain_wf : sampleChain.store.Wf := by
  have h₀ : sampleGenesis.store.Wf := GovStore.Wf.empty _ _ _ 1
  have h₁ := @deliverMsg_wf _ sampleKeeper _ h₀ 1
    (.submitProposal ⟨"title", "text", .text, [3], [⟨"atom", 2⟩]⟩) ⟨1, rfl, by decide⟩
  have h₂ := @deliverMsg_wf _ sampleKeeper _ h₁ 1
    (.submitProposal ⟨"title", "text", .text, [4], [⟨"atom", 5⟩]⟩) ⟨2, by decide +kernel, by decide⟩
  have h₃ := @deliverMsg_wf _ sampleKeeper _ h₂ 2 (.vote ⟨2, [4], .yes⟩) ⟨3, by decide +kernel, by decide⟩
  exact @deliverMsg_wf _ sampleKeeper _ h₃ 2 (.deposit ⟨2, [4], [⟨"atom", 1⟩]⟩)
    ⟨3, by decide +kernel, by decide⟩

end CosmosSdk.Gov
