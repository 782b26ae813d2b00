import CosmosSdk.Gov.Invariant

/-!
# The end blocker

`EndBlocker` walks the inactive queue up to the block time, then the active queue up to the block time,
each as it was when its iterator was opened.  On a store in order (`GovStore.Wf`) the first walk lists
exactly the proposals whose deposit period is over, and the second those whose voting period is over,
each once (`GovStore.mem_queueUpTo`, `GovStore.nodup_queueUpTo`).

Each step of a walk touches one proposal ID: a dropped proposal leaves the store with its queue entries
and its deposits (`Dropped`), and a tallied one is stored with its verdict and results, without queue
entries, deposits or votes (`Tallied`).  The walks are proved one step at a time
(`dropInactiveProposals_eq_ok`, `tallyActiveProposals_eq_ok`), and `endBlocker_eq_ok` puts them together:
under every ID, the end blocker drops, tallies, or leaves the store as it was.
-/

namespace CosmosSdk.Gov

open CosmosSdk.Types Auth StateExcept

namespace GovStore

variable {st st' : GovStore} {id : Nat}

/-- `GetDeposits` reads the deposits under the ID only. -/
theorem getDeposits_congr (h : ∀ a, st.deposits.lookup (id, a) = st'.deposits.lookup (id, a)) :
    st.getDeposits id = st'.getDeposits id := by
  simp only [getDeposits, image_snd_filter_congr h, h]

/-! ### The queues up to a time -/

/-- On a store in order, a queue entry is the ID of a proposal of the queue's status, under its end time
there. -/
theorem Wf.queue_lookup_eq_some (h : st.Wf) {q : ProposalQueue} {key : QueueKey} {v : Nat}
    (hk : (st.queue q).lookup key = some v) :
    ∃ p, st.proposals.lookup v = some p ∧ p.status = q.status ∧ key = toLex (q.endTime p, v) := by
  obtain ⟨⟨t, j⟩, rfl⟩ : ∃ x, toLex x = key := ⟨ofLex key, toLex_ofLex key⟩
  rw [(h.slice j).queue] at hk
  obtain ⟨p, hp, hentry⟩ := Option.bind_eq_some_iff.1 hk
  have hid := (h.slice j).keyed p hp
  unfold queueEntry at hentry
  split_ifs at hentry with hq
  cases hentry
  subst hid
  exact ⟨p, hp, hq.1, by rw [hq.2]⟩

/-- The walk of a queue up to a time lists the proposals of its status whose end time there has come. -/
theorem Wf.mem_queueUpTo (h : st.Wf) {q : ProposalQueue} {t : Int} :
    id ∈ st.queueUpTo q t ↔
      ∃ p, st.proposals.lookup id = some p ∧ p.status = q.status ∧ q.endTime p ≤ t := by
  have hlist := (st.queue q).listing_isListing none (some (toLex (t + 1, 0))) true
  simp only [queueUpTo, List.mem_map, Prod.exists]
  constructor
  · rintro ⟨key, v, hmem, rfl⟩
    obtain ⟨hk, hdom⟩ := (hlist.2 key v).1 hmem
    obtain ⟨p, hp, hstatus, rfl⟩ := h.queue_lookup_eq_some hk
    simp only [isKeyInDomain_iff, Option.mem_def, reduceCtorEq, IsEmpty.forall_iff, implies_true,
      Option.some.injEq, forall_eq', Prod.Lex.toLex_lt_toLex, true_and] at hdom
    exact ⟨p, hp, hstatus, by omega⟩
  · rintro ⟨p, hp, hstatus, hle⟩
    refine ⟨toLex (q.endTime p, id), id, (hlist.2 _ _).2 ⟨?_, ?_⟩, rfl⟩
    · rw [(h.slice id).queue, hp]
      simp [queueEntry, hstatus, (h.slice id).keyed p hp]
    · simp only [isKeyInDomain_iff, Option.mem_def, reduceCtorEq, IsEmpty.forall_iff, implies_true,
        Option.some.injEq, forall_eq', Prod.Lex.toLex_lt_toLex, true_and]
      omega

/-- The walk of a queue visits each proposal once. -/
theorem Wf.nodup_queueUpTo (h : st.Wf) (q : ProposalQueue) (t : Int) : (st.queueUpTo q t).Nodup := by
  have hlist := (st.queue q).listing_isListing none (some (toLex (t + 1, 0))) true
  have hstrict : Overlay.StrictKeys ((st.queue q).listing none (some (toLex (t + 1, 0))) true) := hlist.1
  refine List.Nodup.map_on (fun x hx y hy hxy => ?_) (hstrict.imp fun hlt => ne_of_apply_ne Prod.fst hlt.ne)
  -- two entries with one ID have one key: the proposal's end time and its ID
  obtain ⟨p, hp, -, hx⟩ := h.queue_lookup_eq_some ((hlist.2 x.1 x.2).1 hx).1
  obtain ⟨p', hp', -, hy⟩ := h.queue_lookup_eq_some ((hlist.2 y.1 y.2).1 hy).1
  rw [hxy, hp', Option.some.injEq] at hp
  subst hp
  exact Prod.ext (by rw [hx, hy, hxy]) hxy

/-- No proposal is in both walks: it collects deposits in one and is voted on in the other. -/
theorem Wf.not_mem_queueUpTo_inactive (h : st.Wf) {t t' : Int} (hid : id ∈ st.queueUpTo .active t) :
    id ∉ st.queueUpTo .inactive t' := by
  intro hid'
  obtain ⟨p, hp, hvoting, -⟩ := h.mem_queueUpTo.1 hid
  obtain ⟨p', hp', hdeposit, -⟩ := h.mem_queueUpTo.1 hid'
  rw [hp, Option.some.injEq] at hp'
  subst hp'
  rw [hvoting] at hdeposit
  cases hdeposit

end GovStore

/-! ### `tally` on the governance store -/

section Tally

variable {stake : Staking.Store AccAddress} {gov gov' : Store AccAddress} {id : Nat}

theorem mem_getVotes {vote : Vote AccAddress} :
    vote ∈ getVotes gov id ↔ ∃ a, gov.votes.lookup (id, a) = some vote :=
  mem_filterMap_lookup_entry fun a => by simp only [Finset.mem_sort, mem_image_snd_filter]

/-- `GetVotes` reads the votes under the ID only. -/
theorem getVotes_congr (h : ∀ a, gov.votes.lookup (id, a) = gov'.votes.lookup (id, a)) :
    getVotes gov id = getVotes gov' id := by
  simp only [getVotes, image_snd_filter_congr h, h]

/-- What a run of `tally` that returns computed: the bonded validators by power, the count of the votes
under the ID, the results and the verdict; the votes under the ID are deleted. -/
theorem tally_eq_ok {r : Bool × TallyResult} {tallied : Store AccAddress}
    (h : tally stake gov id = .ok (r, tallied)) :
    ∃ validators t results verdict,
      bondedValidatorsByPower stake stake.params.maxValidators
          ((stake.validatorsByPower.listing none none false).map (·.2)) = .ok validators ∧
      countVotes validators (delegationsOf stake)
        ((getVotes gov id).map fun vote => (vote.voter, vote.option)) = .ok t ∧
      newTallyResultFromMap t.results = .ok results ∧
      passes gov.tallyParams stake.pool.bondedTokens t.results t.totalVotingPower = .ok verdict ∧
      r = (verdict, results) ∧
      tallied.votes = (getVotes gov id).foldl (fun m vote => m.erase (vote.proposalID, vote.voter))
        gov.votes := by
  unfold tally at h
  dsimp only at h
  obtain ⟨validators, hvalidators, h⟩ := except_bind_eq_ok.1 h
  obtain ⟨t, ht, h⟩ := except_bind_eq_ok.1 h
  obtain ⟨results, hresults, h⟩ := except_bind_eq_ok.1 h
  obtain ⟨verdict, hverdict, h⟩ := except_bind_eq_ok.1 h
  cases h
  exact ⟨validators, t, results, verdict, hvalidators, ht, hresults, hverdict, rfl, rfl⟩

/-- `tally` reads the votes under the ID and the tally parameters only. -/
theorem tally_congr (hvotes : ∀ a, gov.votes.lookup (id, a) = gov'.votes.lookup (id, a))
    (hparams : gov.tallyParams = gov'.tallyParams) {r : Bool × TallyResult} {tallied : Store AccAddress}
    (h : tally stake gov id = .ok (r, tallied)) : ∃ tallied', tally stake gov' id = .ok (r, tallied') := by
  obtain ⟨validators, t, results, verdict, hvalidators, ht, hresults, hverdict, rfl, -⟩ := tally_eq_ok h
  rw [getVotes_congr hvotes] at ht
  rw [hparams] at hverdict
  unfold tally
  dsimp only
  rw [hvalidators, except_ok_bind, ht, except_ok_bind, hresults, except_ok_bind, hverdict]
  exact ⟨_, rfl⟩

/-- On records filed under their own keys, `tally` deletes every vote under the ID, and no other. -/
theorem tally_votes_lookup
    (hkeyed : ∀ a vote, gov.votes.lookup (id, a) = some vote → vote.voter = a ∧ vote.proposalID = id)
    {r : Bool × TallyResult} {tallied : Store AccAddress}
    (h : tally stake gov id = .ok (r, tallied)) (i : Nat) (a : AccAddress) :
    tallied.votes.lookup (i, a) = if i = id then none else gov.votes.lookup (i, a) := by
  obtain ⟨-, -, -, -, -, -, -, -, -, hvotes⟩ := tally_eq_ok h
  rw [hvotes, Finmap.lookup_foldl_erase]
  by_cases hi : i = id
  · subst hi
    cases hfound : gov.votes.lookup (i, a) with
    | none => simp
    | some vote =>
      -- the record names its own key, which the walk deletes
      obtain ⟨hvoter, hid⟩ := hkeyed a vote hfound
      have hkey : (i, a) ∈ (getVotes gov i).map fun vote => (vote.proposalID, vote.voter) :=
        List.mem_map.2 ⟨vote, mem_getVotes.2 ⟨a, hfound⟩, by rw [hvoter, hid]⟩
      simp [hkey]
  · have hkey : (i, a) ∉ (getVotes gov id).map fun vote => (vote.proposalID, vote.voter) := by
      rintro hmem
      obtain ⟨vote, hvote, heq⟩ := List.mem_map.1 hmem
      obtain ⟨a', hfound⟩ := mem_getVotes.1 hvote
      exact hi ((hkeyed a' vote hfound).2 ▸ (Prod.ext_iff.1 heq).1).symm
    simp [hkey, hi]

end Tally

/-! ### What the end blocker does under one ID -/

/-- The parts of the store that no write under a proposal ID touches: the next ID and the parameters. -/
structure KeepsGlobals (st st' : GovStore) : Prop where
  next : st'.nextProposalID = st.nextProposalID
  depositParams : st'.depositParams = st.depositParams
  votingParams : st'.votingParams = st.votingParams
  tallyParams : st'.tallyParams = st.tallyParams

theorem KeepsGlobals.refl (st : GovStore) : KeepsGlobals st st := ⟨rfl, rfl, rfl, rfl⟩

theorem KeepsGlobals.trans {st₁ st₂ st₃ : GovStore} (h₁ : KeepsGlobals st₁ st₂) (h₂ : KeepsGlobals st₂ st₃) :
    KeepsGlobals st₁ st₃ :=
  ⟨h₂.next.trans h₁.next, h₂.depositParams.trans h₁.depositParams, h₂.votingParams.trans h₁.votingParams,
    h₂.tallyParams.trans h₁.tallyParams⟩

/-- Under the ID of a proposal the end blocker drops: a proposal was stored, and is no longer, with no
queue entry and no deposit left; the votes as they were. -/
structure Dropped (st st' : GovStore) (id : Nat) : Prop where
  found : st.proposals.lookup id ≠ none
  proposal : st'.proposals.lookup id = none
  queue : ∀ q t, (st'.queue q).lookup (toLex (t, id)) = none
  deposit : ∀ a, st'.deposits.lookup (id, a) = none
  vote : ∀ a, st'.votes.lookup (id, a) = st.votes.lookup (id, a)

/-- Under the ID of a proposal the end blocker tallies: the proposal stored with the verdict `tally`
gives on the votes as they were, passed or rejected, and its results; no queue entry, deposit or vote
left. -/
structure Tallied (stake : Staking.Store AccAddress) (verdict : Bool) (st st' : GovStore) (id : Nat) :
    Prop where
  tallied : ∃ p result gov, st.proposals.lookup id = some p ∧
    tally stake ⟨st.votes, st.tallyParams⟩ id = .ok ((verdict, result), gov) ∧
    st'.proposals.lookup id =
      some { p with status := if verdict then .passed else .rejected, finalTallyResult := result }
  queue : ∀ q t, (st'.queue q).lookup (toLex (t, id)) = none
  deposit : ∀ a, st'.deposits.lookup (id, a) = none
  vote : ∀ a, st'.votes.lookup (id, a) = none

section Effects

variable {st st₁ st' : GovStore} {id : Nat}

theorem Dropped.sameAt_left (h : st.SameAt st₁ id) (hd : Dropped st₁ st' id) : Dropped st st' id where
  found := h.proposal ▸ hd.found
  proposal := hd.proposal
  queue := hd.queue
  deposit := hd.deposit
  vote a := (hd.vote a).trans (h.vote a)

theorem Dropped.sameAt_right (hd : Dropped st st₁ id) (h : st₁.SameAt st' id) : Dropped st st' id where
  found := hd.found
  proposal := h.proposal.trans hd.proposal
  queue q t := (h.queue q t).trans (hd.queue q t)
  deposit a := (h.deposit a).trans (hd.deposit a)
  vote a := (h.vote a).trans (hd.vote a)

/-- A tally of the same votes under the same parameters gives the same verdict and results. -/
theorem Tallied.sameAt_left {stake : Staking.Store AccAddress} {verdict : Bool} (h : st.SameAt st₁ id)
    (hparams : st₁.tallyParams = st.tallyParams) (ht : Tallied stake verdict st₁ st' id) :
    Tallied stake verdict st st' id where
  tallied := by
    obtain ⟨p, result, gov, hp, htally, hp'⟩ := ht.tallied
    obtain ⟨gov', htally'⟩ : ∃ gov', tally stake ⟨st.votes, st.tallyParams⟩ id = .ok ((verdict, result), gov') :=
      tally_congr h.vote hparams htally
    exact ⟨p, result, gov', h.proposal ▸ hp, htally', hp'⟩
  queue := ht.queue
  deposit := ht.deposit
  vote := ht.vote

theorem Tallied.sameAt_right {stake : Staking.Store AccAddress} {verdict : Bool}
    (ht : Tallied stake verdict st st₁ id) (h : st₁.SameAt st' id) : Tallied stake verdict st st' id where
  tallied := by
    obtain ⟨p, result, gov, hp, htally, hp'⟩ := ht.tallied
    exact ⟨p, result, gov, hp, htally, h.proposal.trans hp'⟩
  queue q t := (h.queue q t).trans (ht.queue q t)
  deposit a := (h.deposit a).trans (ht.deposit a)
  vote a := (h.vote a).trans (ht.vote a)

/-- The store after a proposal is dropped: out of both queues at its own times and out of the store, and
its deposits deleted. -/
theorem GovStore.dropped (hslice : st.SliceOK id) {p : Proposal} (hp : st.proposals.lookup id = some p) :
    Dropped st ((((st.removeFromQueue .inactive p.depositEndTime id).removeFromQueue .active
      p.votingEndTime id).eraseProposal id).eraseDeposits id) id where
  found := by simp [hp]
  proposal := Finmap.lookup_erase _ _
  queue q t := by
    show (((st.removeFromQueue .inactive p.depositEndTime id).removeFromQueue .active
      p.votingEndTime id).queue q).lookup (toLex (t, id)) = none
    rw [GovStore.removeFromQueue_lookup, GovStore.removeFromQueue_lookup, hslice.queue, hp]
    -- its only entry is at its end time in the queue of its status, and both are deleted
    cases q <;> simp [queueEntry, ProposalQueue.status, ProposalQueue.endTime, eq_comm] <;>
      exact fun hne _ => hne
  deposit a := by simp [GovStore.eraseDeposits_lookup]
  vote _ := rfl

/-- The votes `tally` leaves agree with the store's away from the proposal. -/
theorem GovStore.sameAt_tallyVotes {stake : Staking.Store AccAddress} (hslice : st.SliceOK id) {i : Nat}
    {r : Bool × TallyResult} {gov : Store AccAddress}
    (htally : tally stake ⟨st.votes, st.tallyParams⟩ id = .ok (r, gov)) (hi : i ≠ id) :
    st.SameAt { st with votes := gov.votes } i :=
  ⟨rfl, fun _ _ => rfl, fun _ => rfl, fun a => by rw [tally_votes_lookup hslice.voteKeyed htally, if_neg hi]⟩

/-- The store after a proposal voted on is tallied: its votes deleted by `tally`, its deposits deleted,
stored with its verdict and results, and out of the active queue. -/
theorem GovStore.tallied {stake : Staking.Store AccAddress} (hslice : st.SliceOK id) {p : Proposal}
    (hp : st.proposals.lookup id = some p) (hvoting : p.status = .votingPeriod) {verdict : Bool}
    {result : TallyResult} {gov : Store AccAddress}
    (htally : tally stake ⟨st.votes, st.tallyParams⟩ p.proposalID = .ok ((verdict, result), gov)) :
    Tallied stake verdict st (((GovStore.eraseDeposits { st with votes := gov.votes } p.proposalID).setProposal
      { p with status := if verdict then .passed else .rejected, finalTallyResult := result }).removeFromQueue
        .active p.votingEndTime p.proposalID) id := by
  have hid := hslice.keyed p hp
  subst hid
  refine ⟨⟨p, result, gov, hp, htally, by simp⟩, fun q t => ?_,
    fun a => by simp [GovStore.eraseDeposits_lookup], fun a => ?_⟩
  · rw [GovStore.removeFromQueue_lookup]
    by_cases hq : q = .active ∧ t = p.votingEndTime ∧ p.proposalID = p.proposalID
    · rw [if_pos hq]
    · rw [if_neg hq]
      show (st.queue q).lookup (toLex (t, p.proposalID)) = none
      rw [hslice.queue, hp]
      -- voted on, it is in the active queue only, at the entry just deleted
      cases q with
      | inactive => simp [queueEntry, ProposalQueue.status, hvoting]
      | active =>
        simp only [queueEntry, ProposalQueue.status, ProposalQueue.endTime, hvoting, Option.bind_some,
          true_and, ite_eq_right_iff, reduceCtorEq, imp_false]
        exact fun he => hq ⟨rfl, he.symm, rfl⟩
  · show gov.votes.lookup (p.proposalID, a) = none
    rw [tally_votes_lookup hslice.voteKeyed htally, if_pos rfl]

end Effects

/-! ### The walks of the queues -/

section Walks

variable {β : Type} {k : Keeper β} {blockTime : Int} {stake : Staking.Store AccAddress} {s s' : GovState β}

theorem tallyProposal_eq_ok {proposalID : Nat} {r : Bool × TallyResult}
    (h : (tallyProposal stake proposalID : GovM β (Bool × TallyResult)) s = .ok (r, s')) :
    ∃ tallied, tally stake ⟨s.store.votes, s.store.tallyParams⟩ proposalID = .ok (r, tallied) ∧
      s' = { s with store := { s.store with votes := tallied.votes } } := by
  unfold tallyProposal at h
  rw [bind_eq_ok] at h
  obtain ⟨gov, s₁, h₁, h⟩ := h
  obtain ⟨rfl, rfl⟩ := getStore_eq_ok.1 h₁
  rw [lift_bind_eq_ok] at h
  obtain ⟨⟨result, tallied⟩, htally, h⟩ := h
  dsimp only at h
  rw [bind_eq_ok] at h
  obtain ⟨_, s₂, h₂, h⟩ := h
  obtain ⟨rfl, rfl⟩ := pure_eq_ok.1 h
  exact ⟨tallied, htally, modifyStore_eq_ok.1 h₂⟩

/-- The walk of the inactive queue over distinct IDs in order: each proposal is dropped, its deposits
sent to `BurnedDepositCoinsAccAddr` in key order, and its tags appended; nothing else is touched. -/
theorem dropInactiveProposals_eq_ok {ids : List Nat} {tags tags' : Tags} (hnodup : ids.Nodup)
    (hslice : ∀ id ∈ ids, s.store.SliceOK id)
    (h : dropInactiveProposals k blockTime ids tags s = .ok (tags', s')) :
    (∀ id ∈ ids, Dropped s.store s'.store id) ∧ (∀ id, id ∉ ids → s.store.SameAt s'.store id) ∧
      KeepsGlobals s.store s'.store ∧
      SendsAll (k.sendCoins blockTime) (ids.flatMap fun id => (s.store.getDeposits id).map fun deposit =>
        (k.depositedCoinsAccAddr, k.burnedDepositCoinsAccAddr, deposit.2)) s.bank s'.bank ∧
      tags' = tags ++ ids.flatMap fun id =>
        [(tagProposalID, toString id), (tagProposalResult, actionProposalDropped)] := by
  induction ids generalizing s tags with
  | nil =>
    obtain ⟨rfl, rfl⟩ := pure_eq_ok.1 h
    exact ⟨nofun, fun i _ => .refl _ i, .refl _, .nil _, by simp⟩
  | cons id ids ih =>
    obtain ⟨hid, hnodup⟩ := List.nodup_cons.1 hnodup
    rw [dropInactiveProposals, bind_eq_ok] at h
    obtain ⟨_, s₁, h₁, h⟩ := h
    rw [bind_eq_ok] at h
    obtain ⟨_, s₂, h₂, h⟩ := h
    obtain ⟨p, hp, rfl⟩ := deleteProposal_eq_ok h₁
    obtain ⟨hsends, hstore⟩ := drainDeposits_eq_ok h₂
    have hdrop : Dropped s.store s₂.store id := by
      rw [hstore]
      exact GovStore.dropped (hslice id List.mem_cons_self) hp
    have hsame : ∀ i, i ≠ id → s.store.SameAt s₂.store i := fun i hi => by
      rw [hstore]
      exact (((GovStore.sameAt_removeFromQueue _ _ _ hi).trans (GovStore.sameAt_removeFromQueue _ _ _ hi)).trans
        (GovStore.sameAt_eraseProposal _ hi)).trans (GovStore.sameAt_eraseDeposits _ hi)
    have hglobals : KeepsGlobals s.store s₂.store := by
      rw [hstore]
      exact ⟨rfl, rfl, rfl, rfl⟩
    have hne : ∀ i ∈ ids, i ≠ id := fun i hi he => hid (he ▸ hi)
    obtain ⟨hdropped, hsame', hglobals', hsends', rfl⟩ :=
      ih hnodup (fun i hi => (hslice i (List.mem_cons_of_mem _ hi)).of_sameAt (hsame i (hne i hi))) h
    refine ⟨fun i hi => ?_, fun i hi => ?_, hglobals.trans hglobals', ?_, by simp⟩
    · rcases List.mem_cons.1 hi with rfl | hi
      · exact hdrop.sameAt_right (hsame' i hid)
      · exact (hdropped i hi).sameAt_left (hsame i (hne i hi))
    · obtain ⟨hi, hi'⟩ := not_or.1 (List.mem_cons.not.1 hi)
      exact (hsame i hi).trans (hsame' i hi')
    · -- the later proposals' deposits are read as they were at the start
      rw [List.flatMap_cons, List.flatMap_congr fun i hi =>
        congrArg (List.map _) (GovStore.getDeposits_congr (hsame i (hne i hi)).deposit).symm]
      exact hsends.append hsends'

/-- One step of the walk of the active queue: the proposal is tallied, its deposits refunded on a pass
and burned otherwise, and it is stored with its verdict and results and leaves the active queue; the walk
goes on with its tags. -/
theorem tallyActiveProposals_cons_eq_ok {id : Nat} {ids : List Nat} {tags tags' : Tags}
    (h : tallyActiveProposals k blockTime stake (id :: ids) tags s = .ok (tags', s')) :
    ∃ p verdict result gov s₁, s.store.proposals.lookup id = some p ∧
      tally stake ⟨s.store.votes, s.store.tallyParams⟩ p.proposalID = .ok ((verdict, result), gov) ∧
      SendsAll (k.sendCoins blockTime) ((s.store.getDeposits p.proposalID).map fun deposit =>
          (k.depositedCoinsAccAddr, if verdict then deposit.1 else k.burnedDepositCoinsAccAddr, deposit.2))
        s.bank s₁.bank ∧
      s₁.store = ((GovStore.eraseDeposits { s.store with votes := gov.votes } p.proposalID).setProposal
        { p with status := if verdict then .passed else .rejected, finalTallyResult := result }).removeFromQueue
          .active p.votingEndTime p.proposalID ∧
      tallyActiveProposals k blockTime stake ids (tags ++ [(tagProposalID, toString id),
        (tagProposalResult, if verdict then actionProposalPassed else actionProposalRejected)]) s₁ =
        .ok (tags', s') := by
  rw [tallyActiveProposals, bind_eq_ok] at h
  obtain ⟨found, s₁, h₁, h⟩ := h
  obtain ⟨hfound, rfl⟩ := getProposal_eq_ok.1 h₁
  cases found with
  | none => exact absurd h throw_ne_ok
  | some p =>
  dsimp only at h
  rw [bind_eq_ok] at h
  obtain ⟨⟨verdict, result⟩, s₂, h₂, h⟩ := h
  obtain ⟨gov, htally, rfl⟩ := tallyProposal_eq_ok h₂
  dsimp only at h
  rw [bind_eq_ok] at h
  obtain ⟨⟨status, tagValue⟩, s₃, h₃, h⟩ := h
  -- the deposits go back to their depositors on a pass, and to the burn account otherwise
  have hbranch : SendsAll (k.sendCoins blockTime) ((s.store.getDeposits p.proposalID).map fun deposit =>
        (k.depositedCoinsAccAddr, if verdict then deposit.1 else k.burnedDepositCoinsAccAddr, deposit.2))
        s.bank s₃.bank ∧
      s₃.store = GovStore.eraseDeposits { s.store with votes := gov.votes } p.proposalID ∧
      status = (if verdict then .passed else .rejected) ∧
      tagValue = (if verdict then actionProposalPassed else actionProposalRejected) := by
    cases verdict with
    | true =>
      rw [if_pos rfl, bind_eq_ok] at h₃
      obtain ⟨_, s₄, h₄, h₃⟩ := h₃
      obtain ⟨hpair, rfl⟩ := pure_eq_ok.1 h₃
      obtain ⟨hsends, hstore⟩ := drainDeposits_eq_ok h₄
      cases hpair
      exact ⟨hsends, hstore, rfl, rfl⟩
    | false =>
      rw [if_neg Bool.false_ne_true, bind_eq_ok] at h₃
      obtain ⟨_, s₄, h₄, h₃⟩ := h₃
      obtain ⟨hpair, rfl⟩ := pure_eq_ok.1 h₃
      obtain ⟨hsends, hstore⟩ := drainDeposits_eq_ok h₄
      cases hpair
      exact ⟨hsends, hstore, rfl, rfl⟩
  obtain ⟨hsends, hstore₃, rfl, rfl⟩ := hbranch
  dsimp only at h
  rw [bind_eq_ok] at h
  obtain ⟨_, s₄, h₄, h⟩ := h
  rw [setProposal_eq_ok] at h₄
  subst h₄
  rw [bind_eq_ok] at h
  obtain ⟨_, s₅, h₅, h⟩ := h
  rw [removeFromActiveProposalQueue_eq_ok] at h₅
  subst h₅
  refine ⟨p, verdict, result, gov, _, hfound, htally, ?_, ?_, h⟩
  · exact hsends
  · simp only [hstore₃]

/-- The walk of the active queue over distinct IDs of proposals voted on, in order: each proposal is
tallied and stored with its verdict, its deposits sent back to their depositors on a pass and to
`BurnedDepositCoinsAccAddr` otherwise, in key order, and its tags appended; nothing else is touched. -/
theorem tallyActiveProposals_eq_ok {ids : List Nat} {tags tags' : Tags} (hnodup : ids.Nodup)
    (hslice : ∀ id ∈ ids, s.store.SliceOK id)
    (hvoting : ∀ id ∈ ids, ∀ p, s.store.proposals.lookup id = some p → p.status = .votingPeriod)
    (h : tallyActiveProposals k blockTime stake ids tags s = .ok (tags', s')) :
    ∃ verdict : Nat → Bool, (∀ id ∈ ids, Tallied stake (verdict id) s.store s'.store id) ∧
      (∀ id, id ∉ ids → s.store.SameAt s'.store id) ∧ KeepsGlobals s.store s'.store ∧
      SendsAll (k.sendCoins blockTime) (ids.flatMap fun id => (s.store.getDeposits id).map fun deposit =>
          (k.depositedCoinsAccAddr, if verdict id then deposit.1 else k.burnedDepositCoinsAccAddr,
            deposit.2)) s.bank s'.bank ∧
      tags' = tags ++ ids.flatMap fun id => [(tagProposalID, toString id),
        (tagProposalResult, if verdict id then actionProposalPassed else actionProposalRejected)] := by
  induction ids generalizing s tags with
  | nil =>
    obtain ⟨rfl, rfl⟩ := pure_eq_ok.1 h
    exact ⟨fun _ => true, nofun, fun i _ => .refl _ i, .refl _, .nil _, by simp⟩
  | cons id ids ih =>
    obtain ⟨hid, hnodup⟩ := List.nodup_cons.1 hnodup
    obtain ⟨p, verdict, result, gov, s₁, hp, htally, hsends, hstore, h⟩ := tallyActiveProposals_cons_eq_ok h
    have hslice₀ := hslice id List.mem_cons_self
    have hpid : p.proposalID = id := hslice₀.keyed p hp
    have htallied : Tallied stake verdict s.store s₁.store id := by
      rw [hstore]
      exact GovStore.tallied hslice₀ hp (hvoting id List.mem_cons_self p hp) htally
    have hsame : ∀ i, i ≠ id → s.store.SameAt s₁.store i := fun i hi => by
      rw [← hpid] at hi
      rw [hstore]
      refine GovStore.SameAt.trans (GovStore.SameAt.trans ((GovStore.sameAt_tallyVotes (hpid ▸ hslice₀) htally hi).trans
        (GovStore.sameAt_eraseDeposits _ hi)) ?_) (GovStore.sameAt_removeFromQueue _ _ _ hi)
      exact GovStore.sameAt_setProposal _ hi
    rw [hpid] at hsends
    have hglobals : KeepsGlobals s.store s₁.store := by
      rw [hstore]
      exact ⟨rfl, rfl, rfl, rfl⟩
    have hne : ∀ i ∈ ids, i ≠ id := fun i hi he => hid (he ▸ hi)
    obtain ⟨verdicts, htallied', hsame', hglobals', hsends', rfl⟩ := ih hnodup
      (fun i hi => (hslice i (List.mem_cons_of_mem _ hi)).of_sameAt (hsame i (hne i hi)))
      (fun i hi p' hp' => hvoting i (List.mem_cons_of_mem _ hi) p' ((hsame i (hne i hi)).proposal ▸ hp')) h
    have hverdicts : ∀ i ∈ ids, Function.update verdicts id verdict i = verdicts i :=
      fun i hi => Function.update_of_ne (hne i hi) _ _
    refine ⟨Function.update verdicts id verdict, fun i hi => ?_, fun i hi => ?_,
      hglobals.trans hglobals', ?_, ?_⟩
    · rcases List.mem_cons.1 hi with rfl | hi
      · rw [Function.update_self]
        exact htallied.sameAt_right (hsame' i hid)
      · rw [hverdicts i hi]
        exact (htallied' i hi).sameAt_left (hsame i (hne i hi)) hglobals.tallyParams
    · obtain ⟨hi, hi'⟩ := not_or.1 (List.mem_cons.not.1 hi)
      exact (hsame i hi).trans (hsame' i hi')
    · rw [List.flatMap_cons, Function.update_self, List.flatMap_congr fun i hi => by
        rw [hverdicts i hi, ← GovStore.getDeposits_congr (hsame i (hne i hi)).deposit]]
      exact hsends.append hsends'
    · conv_rhs => rw [List.flatMap_cons, Function.update_self, List.flatMap_congr fun i hi => by
        rw [hverdicts i hi]]
      simp

/-! ### The end blocker -/

/-- Dropping the proposals of the inactive queue leaves the active queue as it was: none of them is in
it. -/
theorem GovStore.active_queue_of_dropped {st st' : GovStore} (hwf : st.Wf) {ids : List Nat}
    (hids : ∀ id ∈ ids, ∃ p, st.proposals.lookup id = some p ∧ p.status = .depositPeriod)
    (hdropped : ∀ id ∈ ids, Dropped st st' id) (hsame : ∀ id, id ∉ ids → st.SameAt st' id) :
    st'.queue .active = st.queue .active := by
  refine Finmap.ext_lookup fun key => ?_
  obtain ⟨⟨t, id⟩, rfl⟩ : ∃ x, toLex x = key := ⟨ofLex key, toLex_ofLex key⟩
  by_cases hid : id ∈ ids
  · obtain ⟨p, hp, hdeposit⟩ := hids id hid
    rw [(hdropped id hid).queue, (hwf.slice id).queue, hp]
    simp [queueEntry, ProposalQueue.status, hdeposit]
  · exact (hsame id hid).queue .active t

theorem endBlocker_eq_ok {tags : Tags} (hwf : s.store.Wf)
    (h : endBlocker k blockTime stake s = .ok (tags, s')) :
    ∃ verdict : Nat → Bool,
      (∀ id ∈ s.store.queueUpTo .inactive blockTime, Dropped s.store s'.store id) ∧
      (∀ id ∈ s.store.queueUpTo .active blockTime, Tallied stake (verdict id) s.store s'.store id) ∧
      (∀ id, id ∉ s.store.queueUpTo .inactive blockTime → id ∉ s.store.queueUpTo .active blockTime →
        s.store.SameAt s'.store id) ∧
      KeepsGlobals s.store s'.store ∧
      SendsAll (k.sendCoins blockTime)
        ((s.store.queueUpTo .inactive blockTime).flatMap (fun id => (s.store.getDeposits id).map
            fun deposit => (k.depositedCoinsAccAddr, k.burnedDepositCoinsAccAddr, deposit.2)) ++
          (s.store.queueUpTo .active blockTime).flatMap fun id => (s.store.getDeposits id).map
            fun deposit => (k.depositedCoinsAccAddr,
              if verdict id then deposit.1 else k.burnedDepositCoinsAccAddr, deposit.2))
        s.bank s'.bank ∧
      tags = (s.store.queueUpTo .inactive blockTime).flatMap (fun id =>
          [(tagProposalID, toString id), (tagProposalResult, actionProposalDropped)]) ++
        (s.store.queueUpTo .active blockTime).flatMap fun id => [(tagProposalID, toString id),
          (tagProposalResult, if verdict id then actionProposalPassed else actionProposalRejected)] := by
  unfold endBlocker at h
  rw [bind_eq_ok] at h
  obtain ⟨st, s₀, h₀, h⟩ := h
  obtain ⟨rfl, rfl⟩ := getStore_eq_ok.1 h₀
  rw [bind_eq_ok] at h
  obtain ⟨resTags, s₁, h₁, h⟩ := h
  rw [bind_eq_ok] at h
  obtain ⟨st₁, s₂, h₂, h⟩ := h
  obtain ⟨rfl, rfl⟩ := getStore_eq_ok.1 h₂
  set inactive := s.store.queueUpTo .inactive blockTime
  set active := s.store.queueUpTo .active blockTime
  have hinactive : ∀ id ∈ inactive, ∃ p, s.store.proposals.lookup id = some p ∧ p.status = .depositPeriod :=
    fun id hid => by
      obtain ⟨p, hp, hstatus, -⟩ := hwf.mem_queueUpTo.1 hid
      exact ⟨p, hp, hstatus⟩
  have hactive : ∀ id ∈ active, ∃ p, s.store.proposals.lookup id = some p ∧ p.status = .votingPeriod :=
    fun id hid => by
      obtain ⟨p, hp, hstatus, -⟩ := hwf.mem_queueUpTo.1 hid
      exact ⟨p, hp, hstatus⟩
  have hdisjoint : ∀ id ∈ active, id ∉ inactive := fun _ hid => hwf.not_mem_queueUpTo_inactive hid
  obtain ⟨hdropped, hsame₁, hglobals₁, hsends₁, rfl⟩ :=
    dropInactiveProposals_eq_ok (hwf.nodup_queueUpTo .inactive blockTime) (fun id _ => hwf.slice id) h₁
  -- the active queue the second walk reads is the one of the start
  have hqueue : s₁.store.queueUpTo .active blockTime = active := by
    simp only [GovStore.queueUpTo, active,
      GovStore.active_queue_of_dropped hwf hinactive hdropped hsame₁]
  rw [hqueue] at h
  have hsame₁' : ∀ id ∈ active, s.store.SameAt s₁.store id := fun id hid => hsame₁ id (hdisjoint id hid)
  obtain ⟨verdict, htallied, hsame₂, hglobals₂, hsends₂, rfl⟩ :=
    tallyActiveProposals_eq_ok (hwf.nodup_queueUpTo .active blockTime)
      (fun id hid => (hwf.slice id).of_sameAt (hsame₁' id hid))
      (fun id hid p hp => by
        obtain ⟨p', hp', hvoting⟩ := hactive id hid
        rw [(hsame₁' id hid).proposal, hp', Option.some.injEq] at hp
        exact hp ▸ hvoting) h
  refine ⟨verdict, fun id hid => ?_, fun id hid => ?_, fun id hid hid' => ?_, hglobals₁.trans hglobals₂, ?_,
    by rw [List.nil_append]⟩
  · exact (hdropped id hid).sameAt_right (hsame₂ id fun hid' => hdisjoint id hid' hid)
  · exact (htallied id hid).sameAt_left (hsame₁' id hid) hglobals₁.tallyParams
  · exact (hsame₁ id hid).trans (hsame₂ id hid')
  · -- the second walk reads the deposits of its proposals as they were at the start
    rw [List.flatMap_congr fun id hid => by rw [GovStore.getDeposits_congr (hsame₁' id hid).deposit]] at hsends₂
    exact hsends₁.append hsends₂

/-- Under each ID, the end blocker leaves the store in order, and stores a proposal only where one was. -/
theorem endBlocker_slice {tags : Tags} (hwf : s.store.Wf)
    (h : endBlocker k blockTime stake s = .ok (tags, s')) (id : Nat) :
    s'.store.SliceOK id ∧ (s'.store.proposals.lookup id ≠ none → s.store.proposals.lookup id ≠ none) := by
  obtain ⟨verdict, hdropped, htallied, hsame, -, -, -⟩ := endBlocker_eq_ok hwf h
  by_cases hi : id ∈ s.store.queueUpTo .inactive blockTime
  · -- dropped: it collected deposits, so it held no vote
    have hd := hdropped id hi
    obtain ⟨p, hp, hstatus, -⟩ := hwf.mem_queueUpTo.1 hi
    have hvotes : ∀ a, s.store.votes.lookup (id, a) = none := (hwf.slice id).vote_eq_none fun p' hp' => by
      rw [hp, Option.some.injEq] at hp'
      subst hp'
      simp [hstatus, ProposalQueue.status]
    refine ⟨GovStore.SliceOK.of_closed (by simp [hd.proposal]) hd.queue hd.deposit fun a => ?_,
      fun hne => absurd hd.proposal hne⟩
    rw [hd.vote a, hvotes a]
  by_cases ha : id ∈ s.store.queueUpTo .active blockTime
  · -- tallied: passed or rejected, with nothing left under it
    have ht := htallied id ha
    obtain ⟨p, result, gov, hp, -, hp'⟩ := ht.tallied
    refine ⟨GovStore.SliceOK.of_closed (fun p'' hp'' => ?_) ht.queue ht.deposit ht.vote,
      fun _ => by simp [hp]⟩
    rw [hp', Option.some.injEq] at hp''
    subst hp''
    refine ⟨(hwf.slice id).keyed p hp, ?_, ?_⟩ <;> cases verdict id <;> simp
  · exact ⟨(hwf.slice id).of_sameAt (hsame id hi ha), fun hne => by rwa [(hsame id hi ha).proposal] at hne⟩

/-- The end blocker keeps the store in order. -/
theorem endBlocker_wf {tags : Tags} (hwf : s.store.Wf)
    (h : endBlocker k blockTime stake s = .ok (tags, s')) : s'.store.Wf := by
  obtain ⟨n, hn, hbelow⟩ := hwf.next
  obtain ⟨-, -, -, -, hglobals, -, -⟩ := endBlocker_eq_ok hwf h
  exact ⟨⟨n, hglobals.next.trans hn, fun id hid => hbelow id ((endBlocker_slice hwf h id).2 hid)⟩,
    fun id => (endBlocker_slice hwf h id).1⟩

end Walks

/-! ### What the end blocker promises -/

/-- Whether the proposal stored under the ID has passed. -/
def GovStore.hasPassed (st : GovStore) (id : Nat) : Bool :=
  (st.proposals.lookup id).any fun p => decide (p.status = .passed)

theorem Tallied.hasPassed {stake : Staking.Store AccAddress} {verdict : Bool} {st st' : GovStore} {id : Nat}
    (ht : Tallied stake verdict st st' id) : st'.hasPassed id = verdict := by
  obtain ⟨p, result, gov, -, -, hp'⟩ := ht.tallied
  cases verdict <;> simp [GovStore.hasPassed, hp']

variable {β : Type} {k : Keeper β} {blockTime : Int} {stake : Staking.Store AccAddress} {s s' : GovState β}
  {tags : Tags}

theorem endBlocker_proposal_outcomes (hwf : s.store.Wf) (h : endBlocker k blockTime stake s = .ok (tags, s')) :
    s'.store.Wf ∧ KeepsGlobals s.store s'.store ∧
      (∀ id, s.store.proposals.lookup id = none → s.store.SameAt s'.store id) ∧
      ∀ id p, s.store.proposals.lookup id = some p →
        (p.status = .depositPeriod → p.depositEndTime ≤ blockTime →
          s'.store.proposals.lookup id = none ∧ ∀ a, s'.store.deposits.lookup (id, a) = none) ∧
        (p.status = .votingPeriod → p.votingEndTime ≤ blockTime →
          ∃ verdict result gov,
            tally stake ⟨s.store.votes, s.store.tallyParams⟩ id = .ok ((verdict, result), gov) ∧
            s'.store.proposals.lookup id =
              some { p with status := if verdict then .passed else .rejected, finalTallyResult := result } ∧
            (∀ a, s'.store.deposits.lookup (id, a) = none) ∧ ∀ a, s'.store.votes.lookup (id, a) = none) ∧
        ((p.status = .depositPeriod → blockTime < p.depositEndTime) →
          (p.status = .votingPeriod → blockTime < p.votingEndTime) → s.store.SameAt s'.store id) := by
  obtain ⟨verdict, hdropped, htallied, hsame, hglobals, -, -⟩ := endBlocker_eq_ok hwf h
  refine ⟨endBlocker_wf hwf h, hglobals, fun id hnone => ?_, fun id p hp => ⟨fun hdeposit hle => ?_,
    fun hvoting hle => ?_, fun hdeposit hvoting => ?_⟩⟩
  · -- an ID without a proposal is in no queue
    refine hsame id (fun hi => ?_) fun ha => ?_
    · obtain ⟨p, hp, -⟩ := hwf.mem_queueUpTo.1 hi
      simp [hnone] at hp
    · obtain ⟨p, hp, -⟩ := hwf.mem_queueUpTo.1 ha
      simp [hnone] at hp
  · have hd := hdropped id (hwf.mem_queueUpTo.2 ⟨p, hp, hdeposit, hle⟩)
    exact ⟨hd.proposal, hd.deposit⟩
  · have ht := htallied id (hwf.mem_queueUpTo.2 ⟨p, hp, hvoting, hle⟩)
    obtain ⟨p', result, gov, hp', htally, hs'⟩ := ht.tallied
    rw [hp, Option.some.injEq] at hp'
    subst hp'
    exact ⟨verdict id, result, gov, htally, hs', ht.deposit, ht.vote⟩
  · -- a proposal whose period is not over is in neither walk
    refine hsame id (fun hi => ?_) fun ha => ?_
    · obtain ⟨p', hp', hstatus, hle⟩ := hwf.mem_queueUpTo.1 hi
      rw [hp, Option.some.injEq] at hp'
      subst hp'
      exact absurd hle (not_le.2 (hdeposit hstatus))
    · obtain ⟨p', hp', hstatus, hle⟩ := hwf.mem_queueUpTo.1 ha
      rw [hp, Option.some.injEq] at hp'
      subst hp'
      exact absurd hle (not_le.2 (hvoting hstatus))

/-- A staking store with no validator: every tally finds no voting power and rejects. -/
def sampleStake : Staking.Store AccAddress := ⟨∅, ∅, ∅, ∅, ∅, ∅, ∅, ∅, ∅, ∅, 0, ⟨0, 0⟩, ⟨0, 100, 7, "stake"⟩⟩

/-- At time 5 both proposals of the sample chain are due: the one short of its minimum deposit is
dropped with its deposit, and the one voted on is tallied and keeps neither deposit nor vote. -/
theorem endBlocker_proposal_outcomes_due :
    sampleChain.store.Wf ∧ ∃ tags s', endBlocker sampleKeeper 5 sampleStake sampleChain = .ok (tags, s') ∧
      s'.store.Wf ∧ s'.store.proposals.lookup 1 = none ∧ (∀ a, s'.store.deposits.lookup (1, a) = none) ∧
      (∀ a, s'.store.deposits.lookup (2, a) = none) ∧ ∀ a, s'.store.votes.lookup (2, a) = none := by
  obtain ⟨⟨tags, s'⟩, h⟩ :=
    exists_eq_ok_of_isOk (by decide +kernel : (endBlocker sampleKeeper 5 sampleStake sampleChain).isOk = true)
  obtain ⟨hwf', -, -, hdue⟩ := endBlocker_proposal_outcomes sampleChain_wf h
  obtain ⟨p₁, hp₁⟩ := Option.isSome_iff_exists.1
    (by decide +kernel : (sampleChain.store.proposals.lookup 1).isSome = true)
  obtain ⟨p₂, hp₂⟩ := Option.isSome_iff_exists.1
    (by decide +kernel : (sampleChain.store.proposals.lookup 2).isSome = true)
  -- proposal 1 collects deposits until 4, proposal 2 is voted on until 3
  have hstatus₁ : p₁.status = .depositPeriod ∧ p₁.depositEndTime ≤ 5 := by
    have : (sampleChain.store.proposals.lookup 1).map (fun p => decide (p.status = .depositPeriod ∧
        p.depositEndTime ≤ 5)) = some true := by decide +kernel
    simpa [hp₁] using this
  have hstatus₂ : p₂.status = .votingPeriod ∧ p₂.votingEndTime ≤ 5 := by
    have : (sampleChain.store.proposals.lookup 2).map (fun p => decide (p.status = .votingPeriod ∧
        p.votingEndTime ≤ 5)) = some true := by decide +kernel
    simpa [hp₂] using this
  obtain ⟨hgone, hdeposits₁⟩ := (hdue 1 p₁ hp₁).1 hstatus₁.1 hstatus₁.2
  obtain ⟨-, -, -, -, -, hdeposits₂, hvotes₂⟩ := (hdue 2 p₂ hp₂).2.1 hstatus₂.1 hstatus₂.2
  exact ⟨sampleChain_wf, tags, s', h, hwf', hgone, hdeposits₁, hdeposits₂, hvotes₂⟩

theorem endBlocker_deposit_flows (hwf : s.store.Wf) (h : endBlocker k blockTime stake s = .ok (tags, s')) :
    SendsAll (k.sendCoins blockTime)
        ((s.store.queueUpTo .inactive blockTime).flatMap (fun id => (s.store.getDeposits id).map
            fun deposit => (k.depositedCoinsAccAddr, k.burnedDepositCoinsAccAddr, deposit.2)) ++
          (s.store.queueUpTo .active blockTime).flatMap fun id => (s.store.getDeposits id).map
            fun deposit => (k.depositedCoinsAccAddr,
              if s'.store.hasPassed id then deposit.1 else k.burnedDepositCoinsAccAddr, deposit.2))
        s.bank s'.bank ∧
      tags = (s.store.queueUpTo .inactive blockTime).flatMap (fun id =>
          [(tagProposalID, toString id), (tagProposalResult, actionProposalDropped)]) ++
        (s.store.queueUpTo .active blockTime).flatMap fun id => [(tagProposalID, toString id),
          (tagProposalResult, if s'.store.hasPassed id then actionProposalPassed else actionProposalRejected)] := by
  obtain ⟨verdict, -, htallied, -, -, hsends, rfl⟩ := endBlocker_eq_ok hwf h
  have hpassed : ∀ id ∈ s.store.queueUpTo .active blockTime, s'.store.hasPassed id = verdict id :=
    fun id hid => (htallied id hid).hasPassed
  constructor
  · rw [@List.flatMap_congr _ _ (s.store.queueUpTo .active blockTime) _ _ fun id hid => by rw [hpassed id hid]]
    exact hsends
  · conv_rhs => rw [@List.flatMap_congr _ _ (s.store.queueUpTo .active blockTime) _ _ fun id hid => by
      rw [hpassed id hid]]

/-- At time 5 the sample chain burns both proposals' deposits, `2atom` and `6atom`, from the deposit
account: the tally finds no voting power. -/
theorem endBlocker_deposit_flows_due :
    ∃ tags s', endBlocker sampleKeeper 5 sampleStake sampleChain = .ok (tags, s') ∧
      SendsAll (sampleKeeper.sendCoins 5) [([1], [2], [⟨"atom", 2⟩]), ([1], [2], [⟨"atom", 6⟩])]
        sampleChain.bank s'.bank ∧
      tags = [(tagProposalID, "1"), (tagProposalResult, actionProposalDropped), (tagProposalID, "2"),
        (tagProposalResult, actionProposalRejected)] := by
  obtain ⟨⟨tags, s'⟩, h, hrejected⟩ := exists_eq_ok_of_checkOk (by decide +kernel :
    checkOk (endBlocker sampleKeeper 5 sampleStake sampleChain) (·.2.store.hasPassed 2 == false) = true)
  rw [beq_iff_eq] at hrejected
  obtain ⟨hsends, htags⟩ := endBlocker_deposit_flows sampleChain_wf h
  have hinactive : sampleChain.store.queueUpTo .inactive 5 = [1] := by decide +kernel
  have hactive : sampleChain.store.queueUpTo .active 5 = [2] := by decide +kernel
  have hdeposits₁ : sampleChain.store.getDeposits 1 = [([3], [⟨"atom", 2⟩])] := by decide +kernel
  have hdeposits₂ : sampleChain.store.getDeposits 2 = [([4], [⟨"atom", 6⟩])] := by decide +kernel
  rw [hinactive, hactive] at hsends htags
  simp only [List.flatMap_cons, List.flatMap_nil, hdeposits₁, hdeposits₂, hrejected, List.map_cons,
    List.map_nil, List.append_nil, List.cons_append, List.nil_append, Bool.false_eq_true, ↓reduceIte] at hsends htags
  exact ⟨tags, s', h, hsends, htags⟩

/-- A block in which no proposal is due ends with no tags and the store as it was. -/
theorem endBlocker_of_nothing_due (k : Keeper β) (blockTime : Int) (stake : Staking.Store AccAddress)
    (s : GovState β) (hinactive : s.store.queueUpTo .inactive blockTime = [])
    (hactive : s.store.queueUpTo .active blockTime = []) : endBlocker k blockTime stake s = .ok ([], s) := by
  simp only [endBlocker, bind_of_eq_ok (getStore_eq_ok.2 ⟨rfl, rfl⟩), hinactive]
  rw [bind_of_eq_ok rfl, bind_of_eq_ok (getStore_eq_ok.2 ⟨rfl, rfl⟩), hactive]
  rfl

end CosmosSdk.Gov
