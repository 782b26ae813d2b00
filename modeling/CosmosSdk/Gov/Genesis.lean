import CosmosSdk.Gov.Lifecycle
import CosmosSdk.Lib.FinmapFold

/-!
# Genesis: export, then import

`ExportGenesis` writes out the next ID, every proposal under an ID below it with its deposits and votes,
and the parameters.  `InitGenesis` reads them into a store whose next ID is not set: the deposits and
votes under the IDs they come with, and each proposal stored and put in the queue of its status.

On a store in order the round trip gives back the store it started from (`initGenesis_exportGenesis`).
The invariant is what makes it so: every proposal is under its own ID, below the next one, so the export
lists them all; deposits and votes are held only under stored proposals, so the export lists them all;
and the queues hold exactly what the statuses ask for, which is what the import rebuilds.
-/

namespace CosmosSdk.Gov

open CosmosSdk.Types Auth StateExcept

variable {β : Type}

/-! ### The run of `InitGenesis` -/

/-- What `importProposal` writes: the proposal in the queue of its status, if any, and stored. -/
def GovStore.importProposal (st : GovStore) (proposal : Proposal) : GovStore :=
  (match proposal.status with
    | .depositPeriod => st.insertQueue .inactive proposal.depositEndTime proposal.proposalID
    | .votingPeriod => st.insertQueue .active proposal.votingEndTime proposal.proposalID
    | _ => st).setProposal proposal

theorem importProposal_eq_ok (proposal : Proposal) (s : GovState β) :
    importProposal proposal s = .ok ((), { s with store := s.store.importProposal proposal }) := by
  unfold importProposal GovStore.importProposal
  cases proposal.status <;> rfl

/-- A loop of store writes runs them in turn. -/
theorem forM_of_store {α : Type} {f : α → GovM β PUnit} (g : GovStore → α → GovStore)
    (hf : ∀ a s, f a s = .ok (⟨⟩, { s with store := g s.store a })) :
    ∀ (l : List α) (s : GovState β), l.forM f s = .ok (⟨⟩, { s with store := l.foldl g s.store })
  | [], _ => rfl
  | a :: l, s => by
    show (f a >>= fun _ => l.forM f) s = _
    rw [bind_of_eq_ok (hf a s), forM_of_store g hf l]
    rfl

theorem forM_modifyStore {α : Type} (g : GovStore → α → GovStore) (l : List α) (s : GovState β) :
    l.forM (fun a => modifyStore fun st => g st a) s = .ok ((), { s with store := l.foldl g s.store }) :=
  forM_of_store g (fun _ _ => rfl) l s

/-- On a store whose next ID is not set, `InitGenesis` sets it and the parameters, then writes the
deposits, the votes and the proposals in turn. -/
theorem initGenesis_eq_ok (data : GenesisState) {s : GovState β} (hnone : s.store.nextProposalID = none) :
    initGenesis data s = .ok ((), ⟨data.proposals.foldl GovStore.importProposal
      (data.votes.foldl (fun st v => st.setVote v.proposalID v.vote.voter v.vote)
        (data.deposits.foldl (fun st d => st.setDeposit d.proposalID d.deposit.depositor d.deposit.amount)
          { s.store with
            nextProposalID := some data.startingProposalID, depositParams := data.depositParams,
            votingParams := data.votingParams, tallyParams := data.tallyParams })), s.bank⟩) := by
  unfold initGenesis
  rw [bind_of_eq_ok (getStore_eq_ok.2 ⟨rfl, rfl⟩)]
  simp only [hnone]
  rw [bind_of_eq_ok rfl, bind_of_eq_ok rfl, bind_of_eq_ok (forM_modifyStore _ _ _),
    bind_of_eq_ok (forM_modifyStore _ _ _), forM_of_store _ importProposal_eq_ok]

/-! ### The store `InitGenesis` writes -/

namespace GovStore

theorem importProposal_eq (st : GovStore) (p : Proposal) :
    st.importProposal p =
      { st with
        proposals := st.proposals.insert p.proposalID p
        queue := fun q => if p.status = q.status then
          (st.queue q).insert (toLex (q.endTime p, p.proposalID)) p.proposalID else st.queue q } := by
  unfold importProposal
  -- the queue of its status gets the entry; the other statuses go in no queue
  cases p.status <;> simp only [setProposal, insertQueue] <;> congr 1 <;> funext q <;> cases q <;>
    simp [ProposalQueue.status, ProposalQueue.endTime]

theorem foldl_importProposal (l : List Proposal) (st : GovStore) :
    l.foldl importProposal st =
      { st with
        proposals := l.foldl (fun m p => m.insert p.proposalID p) st.proposals
        queue := fun q => (l.filter fun p => p.status = q.status).foldl
          (fun m p => m.insert (toLex (q.endTime p, p.proposalID)) p.proposalID) (st.queue q) } := by
  induction l generalizing st with
  | nil => rfl
  | cons p l ih =>
    rw [List.foldl_cons, ih, importProposal_eq]
    congr 1
    funext q
    by_cases hq : p.status = q.status <;> simp [hq]

theorem foldl_setDeposit (l : List DepositWithMetadata) (st : GovStore) :
    l.foldl (fun st d => st.setDeposit d.proposalID d.deposit.depositor d.deposit.amount) st =
      { st with
        deposits := l.foldl (fun m d => m.insert (d.proposalID, d.deposit.depositor) d.deposit.amount)
          st.deposits } := by
  induction l generalizing st with
  | nil => rfl
  | cons d l ih => exact ih _

theorem foldl_setVote (l : List VoteWithMetadata) (st : GovStore) :
    l.foldl (fun st v => st.setVote v.proposalID v.vote.voter v.vote) st =
      { st with votes := l.foldl (fun m v => m.insert (v.proposalID, v.vote.voter) v.vote) st.votes } := by
  induction l generalizing st with
  | nil => rfl
  | cons v l ih => exact ih _

/-- A store is given by its entries, its next ID and its parameters. -/
theorem ext_lookup {st st' : GovStore} (hproposals : ∀ i, st.proposals.lookup i = st'.proposals.lookup i)
    (hnext : st.nextProposalID = st'.nextProposalID)
    (hdeposits : ∀ i a, st.deposits.lookup (i, a) = st'.deposits.lookup (i, a))
    (hvotes : ∀ i a, st.votes.lookup (i, a) = st'.votes.lookup (i, a))
    (hqueue : ∀ q t i, (st.queue q).lookup (toLex (t, i)) = (st'.queue q).lookup (toLex (t, i)))
    (hdepositParams : st.depositParams = st'.depositParams)
    (hvotingParams : st.votingParams = st'.votingParams) (htallyParams : st.tallyParams = st'.tallyParams) :
    st = st' := by
  cases st
  cases st'
  simp only [mk.injEq]
  refine ⟨Finmap.ext_lookup hproposals, hnext, Finmap.ext_lookup fun key => hdeposits key.1 key.2,
    Finmap.ext_lookup fun key => hvotes key.1 key.2, funext fun q => Finmap.ext_lookup fun key => ?_,
    hdepositParams, hvotingParams, htallyParams⟩
  exact hqueue q (ofLex key).1 (ofLex key).2

end GovStore

/-! ### What `ExportGenesis` writes out -/

section Walks

variable {ι γ A V : Type} [DecidableEq A] {m : MemDB (Nat × A) V}

/-- A map under pairs of an ID and an address, rebuilt from the walks under the IDs of a list: where the
list holds every ID with an entry, each entry comes back as it was. -/
theorem lookup_foldl_insert_walks (walk : Nat → List (A × V))
    (hwalk : ∀ i a v, (a, v) ∈ walk i ↔ m.lookup (i, a) = some v) (l : List ι) (idx : ι → Nat)
    (hl : ∀ i a v, m.lookup (i, a) = some v → ∃ x ∈ l, idx x = i) (mk : ι → A × V → γ)
    (key : γ → Nat × A) (val : γ → V) (hkey : ∀ x, ∀ d ∈ walk (idx x), key (mk x d) = (idx x, d.1))
    (hval : ∀ x, ∀ d ∈ walk (idx x), val (mk x d) = d.2) (i : Nat) (a : A) :
    ((l.flatMap fun x => (walk (idx x)).map (mk x)).foldl (fun m' y => m'.insert (key y) (val y))
      (∅ : MemDB (Nat × A) V)).lookup (i, a) = m.lookup (i, a) := by
  -- every entry the walks give under the key is the one in the map
  have hentry : ∀ y ∈ l.flatMap (fun x => (walk (idx x)).map (mk x)), key y = (i, a) →
      m.lookup (i, a) = some (val y) := by
    intro y hy hkey'
    obtain ⟨x, -, d, hd, rfl⟩ : ∃ x ∈ l, ∃ d ∈ walk (idx x), mk x d = y := by simpa using hy
    rw [hkey x d hd, Prod.mk.injEq] at hkey'
    obtain ⟨rfl, rfl⟩ := hkey'
    rw [hval x d hd]
    exact (hwalk _ _ _).1 hd
  cases hm : m.lookup (i, a) with
  | none =>
    have hne : ∀ y ∈ l.flatMap (fun x => (walk (idx x)).map (mk x)), key y ≠ (i, a) := fun y hy hkey' => by
      simpa [hm] using hentry y hy hkey'
    rw [Finmap.lookup_foldl_insert_of_forall_ne _ _ _ _ hne, Finmap.lookup_empty]
  | some v =>
    obtain ⟨x, hx, rfl⟩ := hl _ _ _ hm
    have hwalked := (hwalk _ _ _).2 hm
    have hmem : mk x (a, v) ∈ l.flatMap (fun x => (walk (idx x)).map (mk x)) :=
      List.mem_flatMap.2 ⟨x, hx, List.mem_map_of_mem hwalked⟩
    refine Finmap.lookup_foldl_insert_of_forall_eq _ _ _ ⟨_, hmem, hkey x (a, v) hwalked⟩ fun y hy hkey' => ?_
    have := hentry y hy hkey'
    rw [hm, Option.some.injEq] at this
    exact this.symm

end Walks

namespace GovStore

variable {st : GovStore} {n i : Nat}

theorem mem_getVotes {proposalID : Nat} {vote : Vote AccAddress} :
    vote ∈ st.getVotes proposalID ↔ ∃ a, st.votes.lookup (proposalID, a) = some vote :=
  mem_filterMap_lookup_entry fun a => by
    simp only [List.mem_mergeSort, Finset.mem_sort, mem_image_snd_filter]

/-- Where each record names the voter of its key, the records walked under an ID, each with its voter,
are the votes under the ID. -/
theorem mem_getVotes_voter (hkeyed : ∀ a vote, st.votes.lookup (i, a) = some vote → vote.voter = a)
    {a : AccAddress} {vote : Vote AccAddress} :
    (a, vote) ∈ (st.getVotes i).map (fun vote => (vote.voter, vote)) ↔ st.votes.lookup (i, a) = some vote := by
  rw [List.mem_map]
  constructor
  · rintro ⟨vote', hmem, heq⟩
    obtain ⟨rfl, rfl⟩ := Prod.mk.inj heq
    obtain ⟨a', ha'⟩ := mem_getVotes.1 hmem
    rwa [← hkeyed a' _ ha'] at ha'
  · intro h
    exact ⟨vote, mem_getVotes.2 ⟨a, h⟩, by rw [hkeyed a vote h]⟩

/-- With no voter, depositor or status to filter by, `GetProposalsFiltered` lists the proposals stored
under the IDs below the next one, in order. -/
theorem getProposalsFiltered_all (h : st.nextProposalID = some n) :
    st.getProposalsFiltered [] [] .nil 0 = (List.range' 0 n).filterMap st.proposals.lookup := by
  simp only [getProposalsFiltered, h, if_true, lt_irrefl, if_false, Nat.sub_self, List.isEmpty_nil,
    Bool.not_true, Bool.false_and, validProposalStatus]
  congr 1
  funext i
  cases st.proposals.lookup i <;> rfl

theorem exportGenesis_startingProposalID (codespace : String) (h : st.nextProposalID = some n) :
    (st.exportGenesis codespace).startingProposalID = n := by
  simp [exportGenesis, peekCurrentProposalID, h]

/-- On a store in order, the export lists every stored proposal, each found under its own ID. -/
theorem Wf.mem_exported (hwf : st.Wf) {p : Proposal} :
    p ∈ st.getProposalsFiltered [] [] .nil 0 ↔ st.proposals.lookup p.proposalID = some p := by
  obtain ⟨n, hn, hbelow⟩ := hwf.next
  rw [getProposalsFiltered_all hn, List.mem_filterMap]
  constructor
  · rintro ⟨i, -, hi⟩
    rw [(hwf.slice i).keyed p hi]
    exact hi
  · intro hp
    have hlt : p.proposalID < n := hbelow _ (by simp [hp])
    exact ⟨p.proposalID, List.mem_range'_1.2 ⟨Nat.zero_le _, by omega⟩, hp⟩

/-! ### The round trip -/

/-- The proposals the import stores are those of the store. -/
theorem Wf.lookup_importedProposals (hwf : st.Wf) (i : Nat) :
    ((st.getProposalsFiltered [] [] .nil 0).foldl (fun m p => m.insert p.proposalID p)
      (∅ : MemDB Nat Proposal)).lookup i =
      st.proposals.lookup i := by
  cases hp : st.proposals.lookup i with
  | none =>
    have hne : ∀ p ∈ st.getProposalsFiltered [] [] .nil 0, p.proposalID ≠ i := fun p hmem hid => by
      have hstored := hwf.mem_exported.1 hmem
      rw [hid, hp] at hstored
      cases hstored
    rw [Finmap.lookup_foldl_insert_of_forall_ne _ _ _ _ hne, Finmap.lookup_empty]
  | some p =>
    have hid := (hwf.slice i).keyed p hp
    refine Finmap.lookup_foldl_insert_of_forall_eq Proposal.proposalID id _
      ⟨p, hwf.mem_exported.2 (hid ▸ hp), hid⟩ fun p' hmem hid' => ?_
    have hstored := hwf.mem_exported.1 hmem
    rw [hid', hp, Option.some.injEq] at hstored
    exact hstored.symm

/-- The deposits the import writes are those of the store: each is held under a stored proposal, whose
walk the export lists. -/
theorem Wf.lookup_importedDeposits (hwf : st.Wf) (codespace : String) (i : Nat) (a : AccAddress) :
    ((st.exportGenesis codespace).deposits.foldl
        (fun m d => m.insert (d.proposalID, d.deposit.depositor) d.deposit.amount)
        (∅ : MemDB (Nat × AccAddress) Coins)).lookup (i, a) =
      st.deposits.lookup (i, a) := by
  refine lookup_foldl_insert_walks st.getDeposits (fun _ _ _ => mem_getDeposits) _ Proposal.proposalID
    (fun i a c hc => ?_)
    (fun proposal deposit => (⟨proposal.proposalID, ⟨deposit.1, proposal.proposalID, deposit.2⟩⟩ :
      DepositWithMetadata))
    (fun d => (d.proposalID, d.deposit.depositor)) (fun d => d.deposit.amount) (fun _ _ _ => rfl)
    (fun _ _ _ => rfl) i a
  obtain ⟨p, hp, -⟩ := (hwf.slice i).deposit a c hc
  have hid := (hwf.slice i).keyed p hp
  exact ⟨p, hwf.mem_exported.2 (hid ▸ hp), hid⟩

/-- The votes the import writes are those of the store: each is held under a stored proposal, whose
walk the export lists, and its record names the voter it is filed under. -/
theorem Wf.lookup_importedVotes (hwf : st.Wf) (codespace : String) (i : Nat) (a : AccAddress) :
    ((st.exportGenesis codespace).votes.foldl
        (fun m v => m.insert (v.proposalID, v.vote.voter) v.vote)
        (∅ : MemDB (Nat × AccAddress) (Vote AccAddress))).lookup (i, a) =
      st.votes.lookup (i, a) := by
  have hexport : (st.exportGenesis codespace).votes = (st.getProposalsFiltered [] [] .nil 0).flatMap
      fun p => ((st.getVotes p.proposalID).map fun vote => (vote.voter, vote)).map
        fun d => (⟨p.proposalID, d.2⟩ : VoteWithMetadata) := by
    simp only [exportGenesis, List.map_map]
    rfl
  rw [hexport]
  refine lookup_foldl_insert_walks (fun i => (st.getVotes i).map fun vote => (vote.voter, vote))
    (fun i _ _ => mem_getVotes_voter fun a vote h => ((hwf.slice i).voteKeyed a vote h).1) _
    Proposal.proposalID (fun i a o ho => ?_) (fun p d => (⟨p.proposalID, d.2⟩ : VoteWithMetadata))
    (fun v => (v.proposalID, v.vote.voter)) (fun v => v.vote) (fun x d hd => ?_) (fun _ _ _ => rfl) i a
  swap
  · -- a walked record comes with its own voter
    obtain ⟨vote, -, rfl⟩ := List.mem_map.1 hd
    rfl
  obtain ⟨p, hp, -⟩ := (hwf.slice i).vote a o ho
  have hid := (hwf.slice i).keyed p hp
  exact ⟨p, hwf.mem_exported.2 (hid ▸ hp), hid⟩

/-- The queues the import rebuilds from the statuses are those of the store. -/
theorem Wf.lookup_importedQueue (hwf : st.Wf) (q : ProposalQueue) (t : Int) (i : Nat) :
    (((st.getProposalsFiltered [] [] .nil 0).filter fun p => p.status = q.status).foldl
        (fun m p => m.insert (toLex (q.endTime p, p.proposalID)) p.proposalID)
        (∅ : MemDB QueueKey Nat)).lookup (toLex (t, i)) =
      (st.queue q).lookup (toLex (t, i)) := by
  rw [(hwf.slice i).queue]
  have hkey : ∀ p : Proposal, toLex (q.endTime p, p.proposalID) = toLex (t, i) ↔
      q.endTime p = t ∧ p.proposalID = i := fun p => by simp
  -- an entry under the key is a proposal of the queue's status stored under the ID
  have hentry : ∀ p ∈ (st.getProposalsFiltered [] [] .nil 0).filter (fun p => p.status = q.status),
      toLex (q.endTime p, p.proposalID) = toLex (t, i) →
        st.proposals.lookup i = some p ∧ p.status = q.status ∧ q.endTime p = t := fun p hmem hk => by
    rw [List.mem_filter, decide_eq_true_iff] at hmem
    obtain ⟨ht, hid⟩ := (hkey p).1 hk
    exact ⟨hid ▸ hwf.mem_exported.1 hmem.1, hmem.2, ht⟩
  cases hp : st.proposals.lookup i with
  | none =>
    have hne : ∀ p ∈ (st.getProposalsFiltered [] [] .nil 0).filter (fun p => p.status = q.status),
        toLex (q.endTime p, p.proposalID) ≠ toLex (t, i) := fun p hmem hk => by
      simpa [hp] using (hentry p hmem hk).1
    rw [Finmap.lookup_foldl_insert_of_forall_ne _ _ _ _ hne, Finmap.lookup_empty]
    rfl
  | some p =>
    have hid := (hwf.slice i).keyed p hp
    rw [Option.bind_some, queueEntry, hid]
    by_cases hq : p.status = q.status ∧ q.endTime p = t
    · rw [if_pos hq]
      have hmem : p ∈ (st.getProposalsFiltered [] [] .nil 0).filter (fun p => p.status = q.status) :=
        List.mem_filter.2 ⟨hwf.mem_exported.2 (hid ▸ hp), decide_eq_true hq.1⟩
      exact Finmap.lookup_foldl_insert_of_forall_eq _ _ _ ⟨p, hmem, (hkey p).2 ⟨hq.2, hid⟩⟩
        fun p' _ hk => ((hkey p').1 hk).2
    · -- the one proposal under the ID is not in this queue at this time
      rw [if_neg hq]
      have hne : ∀ p' ∈ (st.getProposalsFiltered [] [] .nil 0).filter (fun p => p.status = q.status),
          toLex (q.endTime p', p'.proposalID) ≠ toLex (t, i) := fun p' hmem hk => by
        obtain ⟨hp', hstatus, ht⟩ := hentry p' hmem hk
        rw [hp, Option.some.injEq] at hp'
        subst hp'
        exact hq ⟨hstatus, ht⟩
      rw [Finmap.lookup_foldl_insert_of_forall_ne _ _ _ _ hne, Finmap.lookup_empty]

end GovStore

/-- `InitGenesis` on the export of a store in order, run on a store that holds nothing, gives back the
store: the same proposals, deposits, votes, queues, next ID and parameters. -/
theorem initGenesis_exportGenesis {st : GovStore} (hwf : st.Wf) (codespace : String)
    (depositParams : DepositParams) (votingParams : VotingParams) (tallyParams : TallyParams) (bank : β) :
    initGenesis (st.exportGenesis codespace) ⟨GovStore.empty depositParams votingParams tallyParams, bank⟩ =
      .ok ((), ⟨st, bank⟩) := by
  obtain ⟨n, hn, -⟩ := hwf.next
  rw [initGenesis_eq_ok _ rfl, GovStore.foldl_importProposal, GovStore.foldl_setVote,
    GovStore.foldl_setDeposit]
  congr 3
  refine GovStore.ext_lookup (hwf.lookup_importedProposals) ?_ (hwf.lookup_importedDeposits codespace)
    (hwf.lookup_importedVotes codespace) (hwf.lookup_importedQueue) rfl rfl rfl
  rw [GovStore.exportGenesis_startingProposalID codespace hn, hn]

/-- The round trip of the sample chain's store, which holds two proposals, their deposits and a vote. -/
theorem initGenesis_exportGenesis_sample :
    sampleChain.store.Wf ∧
      initGenesis (sampleChain.store.exportGenesis "gov")
          ⟨GovStore.empty ⟨[], 0⟩ ⟨0⟩ ⟨⟨0⟩, ⟨0⟩, ⟨0⟩⟩, sampleChain.bank⟩ =
        .ok ((), ⟨sampleChain.store, sampleChain.bank⟩) :=
  ⟨sampleChain_wf, initGenesis_exportGenesis sampleChain_wf "gov" _ _ _ _⟩

end CosmosSdk.Gov
