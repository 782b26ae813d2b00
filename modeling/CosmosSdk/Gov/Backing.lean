import CosmosSdk.Gov.Deposits
import CosmosSdk.Bank.Keeper

/-!
# The deposit account holds the deposits

`AddDeposit` sends each deposit from the depositor to `DepositedCoinsAccAddr` and records it; the end
blocker sends the deposits of every proposal it drops or closes out of that account, to the depositors
or to `BurnedDepositCoinsAccAddr`, and deletes them.  Wired to the bank's `BaseKeeper`, the module keeps
the account's surplus, what it holds beyond the deposits the store records (`surplus`), exactly as it
was: a handler moves into the account what it records, a refused deposit moves nothing into it
(`handler_surplus`), and the end blocker sends out of it what it deletes (`endBlocker_surplus`).  Both
need the deposit account to hold no deposit of its own, which holds while it signs no message.

The account's key is held by no one, so the ante handler lets through no message it would have to
sign; but any other module may send coins to it.  Along every run in which the account signs nothing
and loses nothing to other modules (`SparingStep`), the surplus therefore never falls
(`run_surplus_le`), and an account that holds the deposits keeps holding them (`run_backed`).
-/

namespace CosmosSdk.Gov

open CosmosSdk.Types Auth StateExcept Transition

namespace GovStore

/-- What all the deposits the store records hold together of a denomination. -/
def depositTotal (st : GovStore) (denom : String) : Int :=
  st.deposits.sumBy fun _ deposit => deposit.amount denom

/-- The store records no deposit by the address. -/
def NoDepositBy (st : GovStore) (addr : AccAddress) : Prop :=
  ∀ id, st.deposits.lookup (id, addr) = none

variable {st st' : GovStore}

/-- A deposit written replaces the depositor's old deposit in the total. -/
theorem depositTotal_setDeposit (st : GovStore) (id : Nat) (a : AccAddress) (amount : Coins) (denom : String) :
    (st.setDeposit id a amount).depositTotal denom =
      st.depositTotal denom - ((st.deposits.lookup (id, a)).map (·.amount denom)).getD 0 + amount.amount denom := by
  rw [depositTotal, setDeposit_deposits, Finmap.sumBy_insert]
  simp [depositTotal, Finmap.entryValue]

/-- The walk of `GetDeposits` meets each deposit under the ID once. -/
theorem sum_getDeposits (st : GovStore) (id : Nat) (denom : String) :
    ((st.getDeposits id).map fun deposit => deposit.2.amount denom).sum = st.depositSum id denom := by
  -- the depositors `GetDeposits` walks: each once, and exactly those with a deposit under the ID
  obtain ⟨l, hl, hnodup, hget⟩ : ∃ l : List AccAddress, (∀ a, a ∈ l ↔ (id, a) ∈ st.deposits) ∧ l.Nodup ∧
      st.getDeposits id = l.filterMap fun a => (st.deposits.lookup (id, a)).map (a, ·) := by
    refine ⟨_, fun a => ?_, List.nodup_mergeSort.2 (Finset.sort_nodup _ _), rfl⟩
    simp only [List.mem_mergeSort, Finset.mem_sort, mem_image_snd_filter]
  rw [hget, Finmap.sum_filterMap_lookup (m := st.deposits) (fun _ deposit => deposit.amount denom) id l,
    depositSum, Finmap.sumBy_fst_eq_sum _ id hnodup hl]

/-- What walks of the deposits of some proposals send, whoever each deposit goes to. -/
theorem sum_flatMap_getDeposits (st : GovStore) (ids : List Nat) (sender : AccAddress)
    (recipient : Nat → AccAddress × Coins → AccAddress) (denom : String) :
    ((ids.flatMap fun id => (st.getDeposits id).map fun deposit => (sender, recipient id deposit, deposit.2)).map
        fun transfer => transfer.2.2.amount denom).sum = (ids.map fun id => st.depositSum id denom).sum := by
  induction ids with
  | nil => rfl
  | cons id ids ih =>
    rw [List.flatMap_cons, List.map_append, List.sum_append, ih, List.map_cons, List.sum_cons, List.map_map,
      ← sum_getDeposits]
    rfl

/-- A store that has dropped the deposits under distinct IDs, and kept the others, records in all what
the store before recorded less the deposits under those IDs. -/
theorem depositTotal_add_sum {ids : List Nat} (hnodup : ids.Nodup)
    (hgone : ∀ id ∈ ids, ∀ a, st'.deposits.lookup (id, a) = none)
    (hsame : ∀ id, id ∉ ids → ∀ a, st'.deposits.lookup (id, a) = st.deposits.lookup (id, a)) (denom : String) :
    st'.depositTotal denom + (ids.map fun id => st.depositSum id denom).sum = st.depositTotal denom := by
  have hin : (ids.map fun id => st.depositSum id denom).sum =
      st.deposits.sumBy fun key deposit => if key.1 ∈ ids then deposit.amount denom else 0 :=
    (Finmap.sumBy_ite_mem _ _ Prod.fst hnodup).symm
  have hout : st'.depositTotal denom =
      st.deposits.sumBy fun key deposit => if key.1 ∈ ids then 0 else deposit.amount denom := by
    rw [depositTotal]
    apply Finmap.sumBy_congr
    rintro ⟨id, a⟩
    by_cases hid : id ∈ ids
    · -- dropped: nothing left under the ID, and nothing counted there
      simp only [Finmap.entryValue, hgone id hid a, hid, ↓reduceIte]
      cases st.deposits.lookup (id, a) <;> rfl
    · simp only [Finmap.entryValue, hsame id hid a, hid, ↓reduceIte]
  have hsplit := Finmap.sumBy_eq_add st.deposits (fun _ deposit => deposit.amount denom) fun key => key.1 ∈ ids
  rw [hin, hout, depositTotal, hsplit]
  omega

theorem NoDepositBy.setDeposit {addr : AccAddress} (h : st.NoDepositBy addr) {id : Nat} {a : AccAddress}
    (ha : a ≠ addr) (amount : Coins) : (st.setDeposit id a amount).NoDepositBy addr := fun i => by
  rw [setDeposit_deposits, Finmap.lookup_insert_of_ne _ fun he => ha (Prod.mk.inj he).2.symm]
  exact h i

end GovStore

/-! ### The surplus of the deposit account -/

/-- What the deposit account holds of a denomination beyond what the deposits the store records hold. -/
def surplus (k : Keeper Bank.State) (s : GovState Bank.State) (denom : String) : Int :=
  s.bank.balance k.depositedCoinsAccAddr denom - s.store.depositTotal denom

/-- The deposit account holds, of every denomination, at least what the recorded deposits hold. -/
def Backed (k : Keeper Bank.State) (s : GovState Bank.State) : Prop :=
  ∀ denom, s.store.depositTotal denom ≤ s.bank.balance k.depositedCoinsAccAddr denom

/-- Sends from one address that all succeed, none to itself, take from it what they send. -/
theorem sendsAll_balance {blockTime : Int} {x : AccAddress} {transfers : List (AccAddress × AccAddress × Coins)}
    {bank bank' : Bank.State} (h : SendsAll (Bank.BaseKeeper.sendCoins blockTime) transfers bank bank')
    (hfrom : ∀ transfer ∈ transfers, transfer.1 = x ∧ transfer.2.1 ≠ x) (denom : String) :
    bank'.balance x denom = bank.balance x denom - (transfers.map fun transfer => transfer.2.2.amount denom).sum := by
  unfold SendsAll at h
  induction h with
  | nil => simp
  | @cons transfer transfers b₁ b₂ b₃ hsend _ ih =>
    obtain ⟨hx, hto⟩ := hfrom transfer List.mem_cons_self
    have hmoved := (Bank.BaseKeeper.sendCoins_moves hsend).balance x denom
    simp only [Bank.amountAt_cons, Bank.amountAt_nil, hx, Ne.symm hto, ↓reduceIte] at hmoved
    rw [ih fun t ht => hfrom t (.tail transfer ht), hmoved, List.map_cons, List.sum_cons]
    omega

variable {k : Keeper Bank.State} {s s' : GovState Bank.State}

/-- States with the same deposits and the same bank have the same surplus. -/
theorem surplus_congr (hdeposits : s'.store.deposits = s.store.deposits) (hbank : s'.bank = s.bank)
    (denom : String) : surplus k s' denom = surplus k s denom := by
  rw [surplus, surplus, GovStore.depositTotal, GovStore.depositTotal, hdeposits, hbank]

/-- `AddDeposit` by another address than the deposit account keeps the surplus: the account receives what
the store records, and a refused deposit moves nothing into it. -/
theorem addDeposit_surplus (hsend : k.sendCoins = Bank.BaseKeeper.sendCoins) {blockTime : Int}
    {proposalID : Nat} {depositorAddr : AccAddress} {depositAmount : Coins} {r : Except Error Bool}
    (hdepositor : depositorAddr ≠ k.depositedCoinsAccAddr)
    (h : addDeposit k blockTime proposalID depositorAddr depositAmount s = .ok (r, s')) (denom : String) :
    surplus k s' denom = surplus k s denom := by
  rcases addDeposit_eq_ok h with ⟨err, -, hstore, hbank | hbank⟩ |
    ⟨p, total, amount, activated, -, -, -, hbank, -, -, hamount, hstore⟩
  · exact surplus_congr (by rw [hstore]) hbank denom
  · -- refused by the bank, which wrote at most the depositor's coins
    rw [hsend] at hbank
    rw [surplus, surplus, hstore, Bank.BaseKeeper.sendCoins_error_balance hbank (Ne.symm hdepositor) denom]
  · rw [hsend] at hbank
    have hmoved := (Bank.BaseKeeper.sendCoins_moves hbank).balance k.depositedCoinsAccAddr denom
    simp only [Bank.amountAt_cons, Bank.amountAt_nil, Ne.symm hdepositor, ↓reduceIte] at hmoved
    have htotal : s'.store.depositTotal denom = s.store.depositTotal denom -
        ((s.store.deposits.lookup (proposalID, depositorAddr)).map (·.amount denom)).getD 0 +
          amount.amount denom := by
      rw [hstore]
      cases activated <;> exact GovStore.depositTotal_setDeposit _ _ _ _ _
    have hadded : ((s.store.deposits.lookup (proposalID, depositorAddr)).map (·.amount denom)).getD 0 +
        depositAmount.amount denom = amount.amount denom := by
      rcases hamount with ⟨hnone, rfl⟩ | ⟨currDeposit, hcurr, hadd⟩
      · simp [hnone]
      · simp only [hcurr, Option.map_some, Option.getD_some, Coins.add_amount hadd denom]
    unfold surplus
    rw [hmoved, htotal]
    omega

theorem addDeposit_noDepositBy {blockTime : Int} {proposalID : Nat} {depositorAddr : AccAddress}
    {depositAmount : Coins} {r : Except Error Bool} (hdepositor : depositorAddr ≠ k.depositedCoinsAccAddr)
    (hno : s.store.NoDepositBy k.depositedCoinsAccAddr)
    (h : addDeposit k blockTime proposalID depositorAddr depositAmount s = .ok (r, s')) :
    s'.store.NoDepositBy k.depositedCoinsAccAddr := by
  rcases addDeposit_eq_ok h with ⟨-, -, hstore, -⟩ | ⟨p, total, amount, activated, -, -, -, -, -, -, -, hstore⟩
  · rw [hstore]
    exact hno
  · rw [hstore]
    cases activated <;> exact GovStore.NoDepositBy.setDeposit hno hdepositor amount

/-- A new proposal records no deposit and moves no coin. -/
theorem newTextProposal_deposits {β : Type} {k : Keeper β} {s s' : GovState β} {blockTime : Int}
    {title description : String} {proposalType : ProposalKind} {r : Option Proposal}
    (h : newTextProposal k blockTime title description proposalType s = .ok (r, s')) :
    s'.store.deposits = s.store.deposits ∧ s'.bank = s.bank := by
  rcases newTextProposal_eq_ok h with ⟨-, rfl⟩ | ⟨n, p, -, -, -, -, -, -, rfl⟩
  · exact ⟨rfl, rfl⟩
  · exact ⟨rfl, rfl⟩

/-- A vote records no deposit and moves no coin. -/
theorem addVote_deposits {β : Type} {k : Keeper β} {s s' : GovState β} {proposalID : Nat}
    {voterAddr : AccAddress} {option : VoteOption} {r : Except Error Unit}
    (h : addVote k proposalID voterAddr option s = .ok (r, s')) :
    s'.store.deposits = s.store.deposits ∧ s'.bank = s.bank := by
  rcases addVote_eq_ok h with rfl | ⟨_, -, -, -, rfl⟩
  · exact ⟨rfl, rfl⟩
  · exact ⟨rfl, rfl⟩

/-- The address a message names as the one who pays: the signer of a proposal or a deposit. -/
theorem ne_of_not_mem_getSigners {addr : AccAddress} {msg : Msg} (h : addr ∉ msg.getSigners) :
    (∀ m, msg = .submitProposal m → m.proposer ≠ addr) ∧ ∀ m, msg = .deposit m → m.depositor ≠ addr := by
  refine ⟨fun m hm he => h ?_, fun m hm he => h ?_⟩
  · simp [hm, Msg.getSigners, MsgSubmitProposal.getSigners, he]
  · simp [hm, Msg.getSigners, MsgDeposit.getSigners, he]

/-- A message the deposit account does not sign keeps the surplus, delivered or refused. -/
theorem handler_surplus (hsend : k.sendCoins = Bank.BaseKeeper.sendCoins) {blockTime : Int} {msg : Msg}
    {r : Result} (hsigners : k.depositedCoinsAccAddr ∉ msg.getSigners)
    (h : handler k blockTime msg s = .ok (r, s')) (denom : String) : surplus k s' denom = surplus k s denom := by
  obtain ⟨hproposer, hdepositor⟩ := ne_of_not_mem_getSigners hsigners
  cases msg with
  | deposit msg =>
    obtain ⟨_, hrun⟩ := handleMsgDeposit_eq_ok h
    exact addDeposit_surplus hsend (hdepositor msg rfl) hrun denom
  | submitProposal msg =>
    obtain ⟨p, s₁, _, h₁, hrun⟩ := handleMsgSubmitProposal_eq_ok h
    obtain ⟨hdeposits, hbank⟩ := newTextProposal_deposits h₁
    rw [addDeposit_surplus hsend (hproposer msg rfl) hrun denom]
    exact surplus_congr hdeposits hbank denom
  | vote msg =>
    obtain ⟨_, hrun⟩ := handleMsgVote_eq_ok h
    obtain ⟨hdeposits, hbank⟩ := addVote_deposits hrun
    exact surplus_congr hdeposits hbank denom

theorem handler_noDepositBy {blockTime : Int} {msg : Msg} {r : Result}
    (hsigners : k.depositedCoinsAccAddr ∉ msg.getSigners) (hno : s.store.NoDepositBy k.depositedCoinsAccAddr)
    (h : handler k blockTime msg s = .ok (r, s')) : s'.store.NoDepositBy k.depositedCoinsAccAddr := by
  obtain ⟨hproposer, hdepositor⟩ := ne_of_not_mem_getSigners hsigners
  cases msg with
  | deposit msg =>
    obtain ⟨_, hrun⟩ := handleMsgDeposit_eq_ok h
    exact addDeposit_noDepositBy (hdepositor msg rfl) hno hrun
  | submitProposal msg =>
    obtain ⟨p, s₁, _, h₁, hrun⟩ := handleMsgSubmitProposal_eq_ok h
    have hno₁ : s₁.store.NoDepositBy k.depositedCoinsAccAddr := fun id => by
      rw [(newTextProposal_deposits h₁).1]
      exact hno id
    exact addDeposit_noDepositBy (hproposer msg rfl) hno₁ hrun
  | vote msg =>
    obtain ⟨_, hrun⟩ := handleMsgVote_eq_ok h
    intro id
    rw [(addVote_deposits hrun).1]
    exact hno id

section EndBlock

variable {blockTime : Int} {stake : Staking.Store AccAddress} {tags : Tags}

/-- The end blocker deletes the deposits of the proposals it drops or tallies, and keeps the others. -/
theorem endBlocker_deposits (hwf : s.store.Wf) (h : endBlocker k blockTime stake s = .ok (tags, s')) :
    (∀ id ∈ s.store.queueUpTo .inactive blockTime ++ s.store.queueUpTo .active blockTime,
      ∀ a, s'.store.deposits.lookup (id, a) = none) ∧
    ∀ id, id ∉ s.store.queueUpTo .inactive blockTime ++ s.store.queueUpTo .active blockTime →
      ∀ a, s'.store.deposits.lookup (id, a) = s.store.deposits.lookup (id, a) := by
  obtain ⟨verdict, hdropped, htallied, hsame, -, -, -⟩ := endBlocker_eq_ok hwf h
  refine ⟨fun id hid => ?_, fun id hid => ?_⟩
  · rcases List.mem_append.1 hid with hi | ha
    · exact (hdropped id hi).deposit
    · exact (htallied id ha).deposit
  · rw [List.mem_append, not_or] at hid
    exact (hsame id hid.1 hid.2).deposit

/-- With the deposit account holding no deposit and the burn account another address, the end blocker
keeps the surplus: it sends out of the deposit account, to others, exactly the deposits it deletes. -/
theorem endBlocker_surplus (hsend : k.sendCoins = Bank.BaseKeeper.sendCoins)
    (hburn : k.burnedDepositCoinsAccAddr ≠ k.depositedCoinsAccAddr) (hwf : s.store.Wf)
    (hno : s.store.NoDepositBy k.depositedCoinsAccAddr) (h : endBlocker k blockTime stake s = .ok (tags, s'))
    (denom : String) : surplus k s' denom = surplus k s denom := by
  obtain ⟨verdict, -, -, -, -, hsends, -⟩ := endBlocker_eq_ok hwf h
  obtain ⟨hgone, hsame⟩ := endBlocker_deposits hwf h
  rw [hsend] at hsends
  -- every transfer leaves the deposit account for another address
  have hbank := sendsAll_balance (x := k.depositedCoinsAccAddr) hsends (fun transfer htransfer => by
    simp only [List.mem_append, List.mem_flatMap, List.mem_map] at htransfer
    rcases htransfer with ⟨id, -, deposit, -, rfl⟩ | ⟨id, -, ⟨depositor, amount⟩, hdeposit, rfl⟩
    · exact ⟨rfl, hburn⟩
    · refine ⟨rfl, ?_⟩
      split
      · -- a refund goes to the depositor, who is not the deposit account
        rintro rfl
        have hfound := GovStore.mem_getDeposits.1 hdeposit
        rw [hno id] at hfound
        cases hfound
      · exact hburn) denom
  have hsent := s.store.sum_flatMap_getDeposits (s.store.queueUpTo .inactive blockTime) k.depositedCoinsAccAddr
    (fun _ _ => k.burnedDepositCoinsAccAddr) denom
  have hrefunded := s.store.sum_flatMap_getDeposits (s.store.queueUpTo .active blockTime) k.depositedCoinsAccAddr
    (fun id deposit => if verdict id then deposit.1 else k.burnedDepositCoinsAccAddr) denom
  have hdeleted := GovStore.depositTotal_add_sum
    ((hwf.nodup_queueUpTo .inactive blockTime).append (hwf.nodup_queueUpTo .active blockTime)
      fun _ hi ha => hwf.not_mem_queueUpTo_inactive ha hi) hgone hsame denom
  rw [List.map_append, List.sum_append] at hbank hdeleted
  unfold surplus
  rw [hbank, hsent, hrefunded]
  omega

theorem endBlocker_noDepositBy (hwf : s.store.Wf) (hno : s.store.NoDepositBy k.depositedCoinsAccAddr)
    (h : endBlocker k blockTime stake s = .ok (tags, s')) : s'.store.NoDepositBy k.depositedCoinsAccAddr := by
  obtain ⟨hgone, hsame⟩ := endBlocker_deposits hwf h
  intro id
  by_cases hid : id ∈ s.store.queueUpTo .inactive blockTime ++ s.store.queueUpTo .active blockTime
  · exact hgone id hid _
  · rw [hsame id hid]
    exact hno id

end EndBlock

/-! ### Along every run -/

/-- What the rest of the chain grants the deposit account in a step: no delivered message is signed by
it, and no other module takes coins from it. -/
def SparesDeposits (k : Keeper Bank.State) (s : GovState Bank.State) : Event → GovState Bank.State → Prop
  | .deliver _ msg, _ => k.depositedCoinsAccAddr ∉ msg.getSigners
  | .endBlock _ _, _ => True
  | .bank, s' => ∀ denom, s.bank.balance k.depositedCoinsAccAddr denom ≤ s'.bank.balance k.depositedCoinsAccAddr denom

/-- A step of the chain that spares the deposit account. -/
def SparingStep (k : Keeper Bank.State) (s : GovState Bank.State) (e : Event) (s' : GovState Bank.State) :
    Prop :=
  Step k s e s' ∧ SparesDeposits k s e s'

/-- A step that spares the deposit account raises its surplus, if anything, and leaves it holding no
deposit. -/
theorem SparingStep.surplus_le (hsend : k.sendCoins = Bank.BaseKeeper.sendCoins)
    (hburn : k.burnedDepositCoinsAccAddr ≠ k.depositedCoinsAccAddr) (hwf : s.store.Wf)
    (hno : s.store.NoDepositBy k.depositedCoinsAccAddr) {e : Event} (h : SparingStep k s e s') :
    (∀ denom, surplus k s denom ≤ surplus k s' denom) ∧ s'.store.NoDepositBy k.depositedCoinsAccAddr := by
  obtain ⟨hstep, hspares⟩ := h
  cases hstep with
  | deliver blockTime msg =>
    rcases deliverMsg_eq k blockTime msg s with heq | ⟨_, hrun⟩
    · rw [heq]
      exact ⟨fun _ => le_rfl, hno⟩
    · exact ⟨fun denom => (handler_surplus hsend hspares hrun denom).ge, handler_noDepositBy hspares hno hrun⟩
  | endBlock hrun =>
    exact ⟨fun denom => (endBlocker_surplus hsend hburn hwf hno hrun denom).ge, endBlocker_noDepositBy hwf hno hrun⟩
  | bank bank =>
    -- another module: the store as it was, and the account's balance no lower
    refine ⟨fun denom => ?_, hno⟩
    have hbalance : s.bank.balance k.depositedCoinsAccAddr denom ≤ bank.balance k.depositedCoinsAccAddr denom :=
      hspares denom
    unfold surplus
    dsimp only
    omega

/-- Along every run from a store in order where the deposit account holds no deposit, with room for the
proposals it submits, if the account signs no message and loses no coin to another module, its surplus
never falls. -/
theorem run_surplus_le (hsend : k.sendCoins = Bank.BaseKeeper.sendCoins)
    (hburn : k.burnedDepositCoinsAccAddr ≠ k.depositedCoinsAccAddr) (hwf : s.store.Wf)
    (hno : s.store.NoDepositBy k.depositedCoinsAccAddr) {es : List Event}
    (hroom : s.store.RoomFor (es.map Event.newProposalIDs).sum) (hrun : Run (SparingStep k) s es s')
    (denom : String) : surplus k s denom ≤ surplus k s' denom := by
  -- the invariant: no deposit by the account, and a surplus no lower than at the start
  have hinv := run_invariant (fun h => h.1) (I := fun s'' =>
      s''.store.NoDepositBy k.depositedCoinsAccAddr ∧ ∀ denom, surplus k s denom ≤ surplus k s'' denom)
    (fun s₁ _ s₂ hwf₁ _ hs hstep => by
      obtain ⟨hno₁, hle₁⟩ := hs
      obtain ⟨hle, hno₂⟩ := hstep.surplus_le hsend hburn hwf₁ hno₁
      exact ⟨hno₂, fun denom => (hle₁ denom).trans (hle denom)⟩)
    hwf hroom hrun ⟨hno, fun _ => le_rfl⟩
  exact hinv.2.2 denom

theorem run_backed (hsend : k.sendCoins = Bank.BaseKeeper.sendCoins)
    (hburn : k.burnedDepositCoinsAccAddr ≠ k.depositedCoinsAccAddr) (hwf : s.store.Wf)
    (hno : s.store.NoDepositBy k.depositedCoinsAccAddr) (hbacked : Backed k s) {es : List Event}
    (hroom : s.store.RoomFor (es.map Event.newProposalIDs).sum) (hrun : Run (SparingStep k) s es s') :
    Backed k s' := by
  intro denom
  have hle := run_surplus_le hsend hburn hwf hno hroom hrun denom
  have hstart := hbacked denom
  unfold surplus at hle
  omega

/-- The sample chain: the deposit account, which signs nothing, holds the `8atom` deposited on its
proposals. -/
theorem run_backed_sample :
    sampleKeeper.sendCoins = Bank.BaseKeeper.sendCoins ∧
      sampleKeeper.burnedDepositCoinsAccAddr ≠ sampleKeeper.depositedCoinsAccAddr ∧
      sampleGenesis.store.Wf ∧ sampleGenesis.store.NoDepositBy sampleKeeper.depositedCoinsAccAddr ∧
      Backed sampleKeeper sampleGenesis ∧
      sampleGenesis.store.RoomFor (sampleMessages.map Event.newProposalIDs).sum ∧
      Run (SparingStep sampleKeeper) sampleGenesis sampleMessages sampleChain ∧
      sampleChain.store.depositTotal "atom" = 8 ∧ Backed sampleKeeper sampleChain := by
  have h₀ : sampleGenesis.store.Wf := GovStore.Wf.empty _ _ _ 1
  have hno : sampleGenesis.store.NoDepositBy sampleKeeper.depositedCoinsAccAddr := fun _ => by
    simp [sampleGenesis, GovStore.empty]
  have hbacked : Backed sampleKeeper sampleGenesis := fun denom => by
    simp [GovStore.depositTotal, Finmap.sumBy, sampleGenesis, GovStore.empty, Bank.State.balance,
      Bank.State.coinsOf, sampleKeeper, Auth.Store.getAccount, Auth.Store.setAccount, Auth.Store.empty,
      Account.getAddress, Account.baseAccount, Account.coinsOrEmpty, Coins.amount_nil]
  have hroom : sampleGenesis.store.RoomFor (sampleMessages.map Event.newProposalIDs).sum := ⟨1, rfl, by decide⟩
  -- every message is signed by `[3]` or `[4]`
  have hspares : ∀ blockTime msg s s', sampleKeeper.depositedCoinsAccAddr ∉ msg.getSigners →
      SparesDeposits sampleKeeper s (.deliver blockTime msg) s' := fun _ _ _ _ h => h
  have hrun : Run (SparingStep sampleKeeper) sampleGenesis sampleMessages sampleChain :=
    .cons ⟨.deliver _ 1 _, hspares _ _ _ _ (by decide)⟩ (.cons ⟨.deliver _ 1 _, hspares _ _ _ _ (by decide)⟩
      (.cons ⟨.deliver _ 2 _, hspares _ _ _ _ (by decide)⟩ (.single ⟨.deliver _ 2 _, hspares _ _ _ _ (by decide)⟩)))
  exact ⟨rfl, by decide, h₀, hno, hbacked, hroom, hrun, by decide +kernel,
    run_backed rfl (by decide) h₀ hno hbacked hroom hrun⟩

end CosmosSdk.Gov
