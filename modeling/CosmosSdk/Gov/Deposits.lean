import CosmosSdk.Gov.Lifecycle
import CosmosSdk.Lib.FinmapSum

/-!
# A proposal's total deposit is the sum of its deposits

`AddDeposit` adds the amount to the proposal's `TotalDeposit` and to the depositor's deposit in the same
run, so while a proposal collects deposits or is voted on, its total deposit holds of every denomination
what the deposits under its ID hold together (`GovStore.TotalsMatch`).  A new proposal starts with no
total and, its ID being free, with no deposit; the end blocker deletes the deposits only of the proposals
it deletes or closes; and every other write leaves the deposits under other IDs as they were.  So the
totals match along every run from a store in order whose totals match (`run_totalsMatch`).
-/

namespace CosmosSdk.Gov

open CosmosSdk.Types Auth StateExcept Transition

namespace GovStore

/-- What the deposits held under an ID hold together of a denomination. -/
def depositSum (st : GovStore) (id : Nat) (denom : String) : Int :=
  st.deposits.sumBy fun key deposit => if key.1 = id then deposit.amount denom else 0

/-- Every proposal that collects deposits or is voted on has as total deposit, in every denomination,
what the deposits under its ID hold together. -/
def TotalsMatch (st : GovStore) : Prop :=
  ∀ id p, st.proposals.lookup id = some p → (p.status = .depositPeriod ∨ p.status = .votingPeriod) →
    ∀ denom, p.totalDeposit.amount denom = st.depositSum id denom

variable {st st' : GovStore} {id : Nat}

/-- The sum under an ID reads the deposits under that ID only. -/
theorem depositSum_congr (h : ∀ a, st'.deposits.lookup (id, a) = st.deposits.lookup (id, a))
    (denom : String) : st'.depositSum id denom = st.depositSum id denom := by
  refine Finmap.sumBy_congr fun ⟨j, a⟩ => ?_
  by_cases hj : j = id
  · subst hj
    simp only [Finmap.entryValue, h a]
  · -- under another ID every summand is zero
    simp only [Finmap.entryValue, hj, ↓reduceIte]
    cases st'.deposits.lookup (j, a) <;> cases st.deposits.lookup (j, a) <;> rfl

/-- With no deposit under an ID, the sum there is zero. -/
theorem depositSum_eq_zero (h : ∀ a, st.deposits.lookup (id, a) = none) (denom : String) :
    st.depositSum id denom = 0 := by
  refine Finset.sum_eq_zero fun ⟨j, a⟩ _ => ?_
  by_cases hj : j = id
  · subst hj
    simp [h a]
  · simp only [hj, ↓reduceIte]
    cases st.deposits.lookup (j, a) <;> rfl

/-- A deposit written under the ID replaces the depositor's old deposit in the sum. -/
theorem depositSum_setDeposit (st : GovStore) (id : Nat) (a : AccAddress) (amount : Coins) (denom : String) :
    (st.setDeposit id a amount).depositSum id denom =
      st.depositSum id denom - ((st.deposits.lookup (id, a)).map (·.amount denom)).getD 0 + amount.amount denom := by
  rw [depositSum, setDeposit_deposits, Finmap.sumBy_insert]
  simp [depositSum, Finmap.entryValue]

theorem TotalsMatch.of_sameAt (h : st.TotalsMatch) (hs : st.SameAt st' id) :
    ∀ p, st'.proposals.lookup id = some p → (p.status = .depositPeriod ∨ p.status = .votingPeriod) →
      ∀ denom, p.totalDeposit.amount denom = st'.depositSum id denom := by
  intro p hp hopen denom
  rw [depositSum_congr hs.deposit]
  exact h id p (hs.proposal ▸ hp) hopen denom

/-- A write under one ID that keeps the totals there keeps them everywhere. -/
theorem TotalsMatch.of_touch (h : st.TotalsMatch) (i : Nat) (hsame : ∀ id, id ≠ i → st.SameAt st' id)
    (hi : ∀ p, st'.proposals.lookup i = some p → (p.status = .depositPeriod ∨ p.status = .votingPeriod) →
      ∀ denom, p.totalDeposit.amount denom = st'.depositSum i denom) : st'.TotalsMatch := by
  intro id
  by_cases hid : id = i
  · subst hid
    exact hi
  · exact h.of_sameAt (hsame id hid)

/-- A deposit on an open proposal adds the amount to its total and to the depositor's deposit. -/
theorem TotalsMatch.deposited (h : st.TotalsMatch) (hwf : st.Wf) {p : Proposal}
    (hp : st.proposals.lookup id = some p) (hstatus : p.status = .depositPeriod ∨ p.status = .votingPeriod)
    {depositAmount total amount : Coins} (htotal : p.totalDeposit.add depositAmount = .ok total)
    {a : AccAddress}
    (hamount : (st.deposits.lookup (id, a) = none ∧ amount = depositAmount) ∨
      ∃ currDeposit, st.deposits.lookup (id, a) = some currDeposit ∧ currDeposit.add depositAmount = .ok amount)
    (activated : Bool) (blockTime : Int) :
    ((if activated then (st.setProposal { p with totalDeposit := total }).activated blockTime
        { p with totalDeposit := total }
      else st.setProposal { p with totalDeposit := total }).setDeposit id a amount).TotalsMatch := by
  have hid : p.proposalID = id := (hwf.slice id).keyed p hp
  have hid' : ({ p with totalDeposit := total } : Proposal).proposalID = id := hid
  have hnew : ∀ p', ((if activated then (st.setProposal { p with totalDeposit := total }).activated blockTime
        { p with totalDeposit := total }
      else st.setProposal { p with totalDeposit := total }).setDeposit id a amount).proposals.lookup id =
        some p' → p'.totalDeposit = total := by
    intro p' hp'
    cases activated with
    | false =>
      rw [if_neg Bool.false_ne_true, setDeposit_proposals, ← hid', setProposal_lookup_self,
        Option.some.injEq] at hp'
      rw [← hp']
    | true =>
      rw [if_pos rfl, setDeposit_proposals, activated_lookup _ blockTime hid', Option.some.injEq] at hp'
      rw [← hp']
  refine h.of_touch id (fun i hi => sameAt_deposited hid total activated blockTime a amount hi) ?_
  intro p' hp' _ denom
  have hsum : ((if activated then (st.setProposal { p with totalDeposit := total }).activated blockTime
        { p with totalDeposit := total }
      else st.setProposal { p with totalDeposit := total }).setDeposit id a amount).depositSum id denom =
      st.depositSum id denom - ((st.deposits.lookup (id, a)).map (·.amount denom)).getD 0 +
        amount.amount denom := by
    cases activated <;> exact depositSum_setDeposit _ id a amount denom
  have hold : p.totalDeposit.amount denom = st.depositSum id denom := h id p hp hstatus denom
  rw [hnew p' hp', hsum, Coins.add_amount htotal denom, hold]
  rcases hamount with ⟨hnone, rfl⟩ | ⟨currDeposit, hcurr, hadd⟩
  · simp [hnone]
  · simp only [hcurr, Option.map_some, Option.getD_some, Coins.add_amount hadd denom]
    omega

/-- A new proposal under the next ID starts with no total, and its ID, never issued, holds no deposit. -/
theorem TotalsMatch.newProposal (h : st.TotalsMatch) (hwf : st.Wf) {n : Nat} (hnext : st.nextProposalID = some n)
    {p : Proposal} (hid : p.proposalID = n) (htotal : p.totalDeposit = []) :
    ((({ st with nextProposalID := some ((n + 1) % 2 ^ 64) } : GovStore).setProposal p).insertQueue .inactive
      p.depositEndTime n).TotalsMatch := by
  refine h.of_touch n (fun i hi => (sameAt_nextProposalID st (some ((n + 1) % 2 ^ 64)) i).trans
    ((sameAt_setProposal _ (hid ▸ hi)).trans (sameAt_insertQueue _ .inactive p.depositEndTime hi))) ?_
  intro p' hp' _ denom
  rw [insertQueue_proposals, setProposal_proposals, hid, Finmap.lookup_insert, Option.some.injEq] at hp'
  subst hp'
  -- nothing was stored under the next ID, so nothing was deposited there
  have hfree : st.proposals.lookup n = none := by
    obtain ⟨n', hn', hbelow⟩ := hwf.next
    rw [hnext, Option.some.injEq] at hn'
    subst hn'
    by_contra hne
    exact lt_irrefl n (hbelow n hne)
  have hnone : ∀ a, st.deposits.lookup (n, a) = none :=
    (hwf.slice n).deposit_eq_none fun p hp => by simp [hfree] at hp
  rw [htotal, Coins.amount_nil]
  exact (depositSum_eq_zero hnone denom).symm

end GovStore

/-! ### Every step keeps the totals -/

variable {β : Type} {k : Keeper β} {s s' : GovState β}

theorem addVote_totalsMatch (h : s.store.TotalsMatch) {proposalID : Nat} {voterAddr : AccAddress}
    {option : VoteOption} {r : Except Error Unit} (hrun : addVote k proposalID voterAddr option s = .ok (r, s')) :
    s'.store.TotalsMatch := by
  rcases addVote_eq_ok hrun with rfl | ⟨_, -, -, -, rfl⟩
  · exact h
  · -- a vote writes neither proposals nor deposits
    exact h

theorem addDeposit_totalsMatch (hwf : s.store.Wf) (h : s.store.TotalsMatch) {blockTime : Int}
    {proposalID : Nat} {depositorAddr : AccAddress} {depositAmount : Coins} {r : Except Error Bool}
    (hrun : addDeposit k blockTime proposalID depositorAddr depositAmount s = .ok (r, s')) :
    s'.store.TotalsMatch := by
  rcases addDeposit_eq_ok hrun with ⟨-, -, hstore, -⟩ |
    ⟨p, total, amount, activated, -, hp, hstatus, -, htotal, -, hamount, hstore⟩
  · rw [hstore]
    exact h
  · rw [hstore]
    exact h.deposited hwf hp hstatus htotal hamount activated blockTime

theorem newTextProposal_totalsMatch (hwf : s.store.Wf) (h : s.store.TotalsMatch) {blockTime : Int}
    {title description : String} {proposalType : ProposalKind} {r : Option Proposal}
    (hrun : newTextProposal k blockTime title description proposalType s = .ok (r, s')) :
    s'.store.TotalsMatch := by
  rcases newTextProposal_eq_ok hrun with ⟨-, rfl⟩ | ⟨n, p, hnext, -, hid, -, -, htotal, rfl⟩
  · exact h
  · exact h.newProposal hwf hnext hid htotal

theorem handler_totalsMatch (hwf : s.store.Wf) (h : s.store.TotalsMatch) {blockTime : Int} {msg : Msg}
    (hroom : s.store.RoomFor msg.newProposalIDs) {r : Result} (hrun : handler k blockTime msg s = .ok (r, s')) :
    s'.store.TotalsMatch := by
  cases msg with
  | deposit msg =>
    obtain ⟨_, hrun⟩ := handleMsgDeposit_eq_ok hrun
    exact addDeposit_totalsMatch hwf h hrun
  | submitProposal msg =>
    obtain ⟨p, s₁, _, h₁, hrun⟩ := handleMsgSubmitProposal_eq_ok hrun
    exact addDeposit_totalsMatch (newTextProposal_wf hwf hroom h₁) (newTextProposal_totalsMatch hwf h h₁) hrun
  | vote msg =>
    obtain ⟨_, hrun⟩ := handleMsgVote_eq_ok hrun
    exact addVote_totalsMatch h hrun

/-- The end blocker deletes the proposals it drops and closes those it tallies; the rest keep their
proposals and deposits. -/
theorem endBlocker_totalsMatch (hwf : s.store.Wf) (h : s.store.TotalsMatch) {blockTime : Int}
    {stake : Staking.Store AccAddress} {tags : Tags} (hrun : endBlocker k blockTime stake s = .ok (tags, s')) :
    s'.store.TotalsMatch := by
  obtain ⟨verdict, hdropped, htallied, hsame, -, -, -⟩ := endBlocker_eq_ok hwf hrun
  intro id p' hp' hopen denom
  by_cases hi : id ∈ s.store.queueUpTo .inactive blockTime
  · rw [(hdropped id hi).proposal] at hp'
    cases hp'
  by_cases ha : id ∈ s.store.queueUpTo .active blockTime
  · -- a tallied proposal is passed or rejected
    obtain ⟨p, result, gov, -, -, hclosed⟩ := (htallied id ha).tallied
    rw [hclosed, Option.some.injEq] at hp'
    subst hp'
    cases hv : verdict id <;> simp [hv] at hopen
  · exact h.of_sameAt (hsame id hi ha) p' hp' hopen denom

theorem Step.totalsMatch (hwf : s.store.Wf) (h : s.store.TotalsMatch) {e : Event}
    (hroom : s.store.RoomFor e.newProposalIDs) (hstep : Step k s e s') : s'.store.TotalsMatch := by
  cases hstep with
  | deliver blockTime msg =>
    rcases deliverMsg_eq k blockTime msg s with heq | ⟨_, hrun⟩
    · rw [heq]
      exact h
    · exact handler_totalsMatch hwf h hroom hrun
  | endBlock hrun => exact endBlocker_totalsMatch hwf h hrun
  | bank bank => exact h

/-- Along every run from a store in order whose totals match, with room for the proposals it submits,
every proposal that collects deposits or is voted on has as total deposit, in every denomination, what
the deposits under its ID hold together. -/
theorem run_totalsMatch {es : List Event} (hwf : s.store.Wf) (h : s.store.TotalsMatch)
    (hroom : s.store.RoomFor (es.map Event.newProposalIDs).sum) (hrun : Run (Step k) s es s') :
    s'.store.TotalsMatch :=
  (run_invariant (fun h => h) (I := fun s => s.store.TotalsMatch)
    (fun _ _ _ hwf₁ hroom₁ h₁ hstep => hstep.totalsMatch hwf₁ h₁ hroom₁) hwf hroom hrun h).2

/-- The sample chain's proposals, one collecting `2atom` and one voted on with `6atom`, hold as totals what
their deposits hold. -/
theorem run_totalsMatch_sample :
    sampleGenesis.store.Wf ∧ sampleGenesis.store.TotalsMatch ∧
      sampleGenesis.store.RoomFor (sampleMessages.map Event.newProposalIDs).sum ∧
      Run (Step sampleKeeper) sampleGenesis sampleMessages sampleChain ∧ sampleChain.store.TotalsMatch := by
  have h₀ : sampleGenesis.store.Wf := GovStore.Wf.empty _ _ _ 1
  have htotals : sampleGenesis.store.TotalsMatch := fun _ _ hp => by
    simp [sampleGenesis, GovStore.empty] at hp
  have hroom : sampleGenesis.store.RoomFor (sampleMessages.map Event.newProposalIDs).sum := ⟨1, rfl, by decide⟩
  exact ⟨h₀, htotals, hroom, run_sampleMessages, run_totalsMatch h₀ htotals hroom run_sampleMessages⟩

end CosmosSdk.Gov
