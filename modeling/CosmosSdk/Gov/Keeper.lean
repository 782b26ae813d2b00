import CosmosSdk.Gov.Tally
import CosmosSdk.Bank.Keeper
import CosmosSdk.Store.Prefix

/-!
# The governance keeper

`Keeper` of `x/gov/keeper.go`.  Its store holds each proposal under `KeyProposal(proposalID)`, the next
proposal ID under `KeyNextProposalID`, each deposit under `KeyDeposit(proposalID, depositor)`, each vote
under `KeyVote(proposalID, voter)`, and two queues of proposal IDs: the inactive queue of the proposals
collecting deposits until their `DepositEndTime`, and the active queue of the proposals being voted on
until their `VotingEndTime`.  The parameters come from the parameter subspace; the model keeps them
beside the store.

A queue's key is the end time as `FormatTimeBytes` writes it (a text that sorts as the times do) and
the ID in big-endian bytes, and its iterator runs from the queue's prefix to `PrefixEndBytes` of the
prefix and the time: the model keys a queue by the end time and the ID, in that order, and lists its
entries up to the time (`GovStore.queueUpTo`).  A deposit's and a vote's key write the address with `%d`,
which `AccAddress.Format` prints as `%X`, its bytes in uppercase hexadecimal (`formatBytesHex`), so
`GetDeposits` and `GetVotes` walk a proposal's entries in the order of that text.

A vote is kept as the record `AddVote` stores.  `InitGenesis` files a record under the proposal ID its
genesis entry comes with, which need not be the one the record holds, and `tally` deletes a vote under
the record's own.  A deposit is kept as its amount: the depositor its record repeats is that of its key,
as every write makes it, and the proposal ID it repeats is read back only by `ExportGenesis`.

Coins move through the bank's `SendCoins` at the block time: a deposit into `DepositedCoinsAccAddr`,
and at the end back to its depositor (`RefundDeposits`) or on to `BurnedDepositCoinsAccAddr`
(`DeleteDeposits`), which panic if the bank refuses.
-/

namespace CosmosSdk.Gov

open CosmosSdk.Types Auth StateExcept

/-- `ProposalStatus`. -/
inductive ProposalStatus where
  | nil | depositPeriod | votingPeriod | passed | rejected
  deriving DecidableEq

/-- `ProposalKind`, by its named values; the other bytes a message may carry are not modelled. -/
inductive ProposalKind where
  | nil | text | parameterChange | softwareUpgrade
  deriving DecidableEq

/-- `TextProposal`, the one implementation of `Proposal`; times are block times. -/
structure Proposal where
  proposalID : Nat
  title : String
  description : String
  proposalType : ProposalKind
  status : ProposalStatus
  finalTallyResult : TallyResult
  submitTime : Int
  depositEndTime : Int
  totalDeposit : Coins
  votingStartTime : Int
  votingEndTime : Int

/-- `DepositParams`. -/
structure DepositParams where
  minDeposit : Coins
  maxDepositPeriod : Int

/-- `VotingParams`. -/
structure VotingParams where
  votingPeriod : Int

/-- The two proposal queues. -/
inductive ProposalQueue where
  | active | inactive
  deriving DecidableEq

/-- The status of the proposals a queue holds. -/
def ProposalQueue.status : ProposalQueue → ProposalStatus
  | .active => .votingPeriod
  | .inactive => .depositPeriod

/-- The time a proposal waits for in a queue. -/
def ProposalQueue.endTime : ProposalQueue → Proposal → Int
  | .active => Proposal.votingEndTime
  | .inactive => Proposal.depositEndTime

/-- A queue's key: the end time, then the proposal ID. -/
abbrev QueueKey := Int ×ₗ Nat

/-- The governance store and the parameters. -/
structure GovStore where
  proposals : MemDB Nat Proposal
  nextProposalID : Option Nat
  deposits : MemDB (Nat × AccAddress) Coins
  votes : MemDB (Nat × AccAddress) (Vote AccAddress)
  queue : ProposalQueue → MemDB QueueKey Nat
  depositParams : DepositParams
  votingParams : VotingParams
  tallyParams : TallyParams

/-- What the keeper is built with: its codespace, the accounts deposits are held in and burned to
(`DepositedCoinsAccAddr` and `BurnedDepositCoinsAccAddr`, hashes of fixed texts), the bech32 text of an
address, and the bank's `SendCoins` at a block time. -/
structure Keeper (β : Type) where
  codespace : String
  depositedCoinsAccAddr : AccAddress
  burnedDepositCoinsAccAddr : AccAddress
  addrString : AccAddress → String
  sendCoins : Int → AccAddress → AccAddress → Coins → StateT β (Except Panic) (Except Error Unit)

/-- The state the keeper works on: its store and the bank's state. -/
structure GovState (β : Type) where
  store : GovStore
  bank : β

/-- A function of the keeper. -/
abbrev GovM (β α : Type) := StateT (GovState β) (Except Panic) α

/-! ### Errors -/

/-- `ErrUnknownProposal`. -/
def errUnknownProposal (codespace : String) (proposalID : Nat) : Error :=
  ⟨codespace, 1, "Unknown proposal with id " ++ toString proposalID⟩

/-- `ErrInactiveProposal`. -/
def errInactiveProposal (codespace : String) (proposalID : Nat) : Error :=
  ⟨codespace, 2, "Inactive proposal with id " ++ toString proposalID⟩

/-- `ErrAlreadyFinishedProposal`. -/
def errAlreadyFinishedProposal (codespace : String) (proposalID : Nat) : Error :=
  ⟨codespace, 4, "Proposal " ++ toString proposalID ++ " has already passed its voting period"⟩

/-- The byte of a vote option, which `%v` prints. -/
def VoteOption.toByte : VoteOption → Nat
  | .empty => 0
  | .yes => 1
  | .abstain => 2
  | .no => 3
  | .noWithVeto => 4

/-- `ErrInvalidVote`. -/
def errInvalidVote (codespace : String) (option : VoteOption) : Error :=
  ⟨codespace, 9, "'" ++ toString option.toByte ++ "' is not a valid voting option"⟩

/-- `ErrInvalidGenesis`, which takes the code of `ErrInvalidVote`. -/
def errInvalidGenesis (codespace msg : String) : Error := ⟨codespace, 9, msg⟩

/-- The panic of a method called on a `nil` proposal. -/
def nilDereference : Panic := .other "runtime error: invalid memory address or nil pointer dereference"

/-! ### The store -/

/-- `%X` of a byte: two uppercase hexadecimal digits. -/
def hexByte (b : UInt8) : List Char :=
  [(Nat.digitChar (b.toNat / 16)).toUpper, (Nat.digitChar (b.toNat % 16)).toUpper]

/-- `%X` of a byte slice, which `AccAddress.Format` prints for `%d`: each byte in two uppercase
hexadecimal digits. -/
def formatBytesHex (bz : List UInt8) : String := String.ofList (bz.flatMap hexByte)

namespace GovStore

/-- `SetProposal`. -/
@[simps]
def setProposal (st : GovStore) (proposal : Proposal) : GovStore :=
  { st with proposals := st.proposals.insert proposal.proposalID proposal }

/-- The proposal deleted, its queue entries aside. -/
@[simps]
def eraseProposal (st : GovStore) (proposalID : Nat) : GovStore :=
  { st with proposals := st.proposals.erase proposalID }

/-- `setDeposit`. -/
@[simps]
def setDeposit (st : GovStore) (proposalID : Nat) (depositorAddr : AccAddress) (amount : Coins) : GovStore :=
  { st with deposits := st.deposits.insert (proposalID, depositorAddr) amount }

/-- The deposit deleted, as the walks of `RefundDeposits` and `DeleteDeposits` delete it. -/
@[simps]
def eraseDeposit (st : GovStore) (proposalID : Nat) (depositorAddr : AccAddress) : GovStore :=
  { st with deposits := st.deposits.erase (proposalID, depositorAddr) }

/-- `setVote`. -/
@[simps]
def setVote (st : GovStore) (proposalID : Nat) (voterAddr : AccAddress) (vote : Vote AccAddress) : GovStore :=
  { st with votes := st.votes.insert (proposalID, voterAddr) vote }

/-- `InsertActiveProposalQueue` and `InsertInactiveProposalQueue`: the ID under its time and itself. -/
@[simps]
def insertQueue (st : GovStore) (q : ProposalQueue) (endTime : Int) (proposalID : Nat) : GovStore :=
  { st with
    queue := Function.update st.queue q ((st.queue q).insert (toLex (endTime, proposalID)) proposalID) }

/-- `RemoveFromActiveProposalQueue` and `RemoveFromInactiveProposalQueue`. -/
@[simps]
def removeFromQueue (st : GovStore) (q : ProposalQueue) (endTime : Int) (proposalID : Nat) : GovStore :=
  { st with queue := Function.update st.queue q ((st.queue q).erase (toLex (endTime, proposalID))) }

/-- What `ActiveProposalQueueIterator(endTime)` and `InactiveProposalQueueIterator(endTime)` walk: the
IDs of the entries up to the time, by time and then ID. -/
def queueUpTo (st : GovStore) (q : ProposalQueue) (endTime : Int) : List Nat :=
  ((st.queue q).listing none (some (toLex (endTime + 1, 0))) true).map (·.2)

/-- `GetDeposits`: the proposal's depositors and amounts, in the order of their keys. -/
def getDeposits (st : GovStore) (proposalID : Nat) : List (AccAddress × Coins) :=
  let depositors := (st.deposits.keys.filter (·.1 = proposalID)).image Prod.snd
  (depositors.sort.mergeSort fun a b => decide (formatBytesHex a ≤ formatBytesHex b)).filterMap
    fun depositor => (st.deposits.lookup (proposalID, depositor)).map (depositor, ·)

/-- The deposits after the walk of `RefundDeposits` or `DeleteDeposits`: each of the proposal's deposits
deleted in turn. -/
def eraseDeposits (st : GovStore) (proposalID : Nat) : GovStore :=
  { st with
    deposits := (st.getDeposits proposalID).foldl (fun m deposit => m.erase (proposalID, deposit.1))
      st.deposits }

/-- `GetVotes`: the vote records under the proposal's ID, in the order of their keys. -/
def getVotes (st : GovStore) (proposalID : Nat) : List (Vote AccAddress) :=
  let voters := (st.votes.keys.filter (·.1 = proposalID)).image Prod.snd
  (voters.sort.mergeSort fun a b => decide (formatBytesHex a ≤ formatBytesHex b)).filterMap
    fun voter => st.votes.lookup (proposalID, voter)

/-- `peekCurrentProposalID`. -/
def peekCurrentProposalID (st : GovStore) (codespace : String) : Except Error Nat :=
  match st.nextProposalID with
  | none => .error (errInvalidGenesis codespace "InitialProposalID never set")
  | some proposalID => .ok proposalID

end GovStore

variable {β : Type}

/-- The store. -/
def getStore : GovM β GovStore := return (← get).store

/-- Update the store. -/
def modifyStore (f : GovStore → GovStore) : GovM β Unit := modify fun s => { s with store := f s.store }

/-- A bank call, on the bank's part of the state. -/
def liftBank {α : Type} (m : StateT β (Except Panic) α) : GovM β α := fun s => do
  let (a, bank) ← m s.bank
  pure (a, { s with bank := bank })

/-- `GetProposal`. -/
def getProposal (proposalID : Nat) : GovM β (Option Proposal) :=
  return (← getStore).proposals.lookup proposalID

/-- `SetProposal`. -/
def setProposal (proposal : Proposal) : GovM β Unit := modifyStore (·.setProposal proposal)

/-- `InsertActiveProposalQueue`. -/
def insertActiveProposalQueue (endTime : Int) (proposalID : Nat) : GovM β Unit :=
  modifyStore (·.insertQueue .active endTime proposalID)

/-- `RemoveFromActiveProposalQueue`. -/
def removeFromActiveProposalQueue (endTime : Int) (proposalID : Nat) : GovM β Unit :=
  modifyStore (·.removeFromQueue .active endTime proposalID)

/-- `InsertInactiveProposalQueue`. -/
def insertInactiveProposalQueue (endTime : Int) (proposalID : Nat) : GovM β Unit :=
  modifyStore (·.insertQueue .inactive endTime proposalID)

/-- `RemoveFromInactiveProposalQueue`. -/
def removeFromInactiveProposalQueue (endTime : Int) (proposalID : Nat) : GovM β Unit :=
  modifyStore (·.removeFromQueue .inactive endTime proposalID)

/-- `DeleteProposal`: the proposal leaves both queues, at its own times, and the store. -/
def deleteProposal (proposalID : Nat) : GovM β Unit := do
  let some proposal ← getProposal proposalID | throw nilDereference
  removeFromInactiveProposalQueue proposal.depositEndTime proposalID
  removeFromActiveProposalQueue proposal.votingEndTime proposalID
  modifyStore (·.eraseProposal proposalID)

/-- `getNewProposalID`: the next ID, which moves on by one as the `uint64` it is stored as. -/
def getNewProposalID (k : Keeper β) : GovM β (Except Error Nat) := do
  match (← getStore).nextProposalID with
  | none => return .error (errInvalidGenesis k.codespace "InitialProposalID never set")
  | some proposalID =>
    modifyStore fun st => { st with nextProposalID := some ((proposalID + 1) % 2 ^ 64) }
    return .ok proposalID

/-- `EmptyTallyResult`. -/
def emptyTallyResult : TallyResult := ⟨0, 0, 0, 0⟩

/-- The zero `time.Time`, the model's time `0`. -/
def zeroTime : Int := 0

/-- `NewTextProposal`: a proposal collecting deposits until the deposit period is over, in the
inactive queue; `nil` if the next ID was never set. -/
def newTextProposal (k : Keeper β) (blockTime : Int) (title description : String)
    (proposalType : ProposalKind) : GovM β (Option Proposal) := do
  match ← getNewProposalID k with
  | .error _ => return none
  | .ok proposalID =>
    let depositPeriod := (← getStore).depositParams.maxDepositPeriod
    let proposal : Proposal :=
      { proposalID := proposalID, title := title, description := description,
        proposalType := proposalType, status := .depositPeriod, finalTallyResult := emptyTallyResult,
        submitTime := blockTime, depositEndTime := blockTime + depositPeriod, totalDeposit := [],
        votingStartTime := zeroTime, votingEndTime := zeroTime }
    setProposal proposal
    insertInactiveProposalQueue proposal.depositEndTime proposalID
    return some proposal

/-- `activateVotingPeriod`: the proposal is voted on from the block time for the voting period, and
moves from the inactive queue to the active one. -/
def activateVotingPeriod (blockTime : Int) (proposal : Proposal) : GovM β Unit := do
  let votingPeriod := (← getStore).votingParams.votingPeriod
  let proposal := { proposal with votingStartTime := blockTime,
                                  votingEndTime := blockTime + votingPeriod, status := .votingPeriod }
  setProposal proposal
  removeFromInactiveProposalQueue proposal.depositEndTime proposal.proposalID
  insertActiveProposalQueue proposal.votingEndTime proposal.proposalID

/-- `validVoteOption`. -/
def validVoteOption : VoteOption → Bool
  | .yes | .abstain | .no | .noWithVeto => true
  | .empty => false

/-- `AddVote`: only on a proposal in its voting period, with a valid option. -/
def addVote (k : Keeper β) (proposalID : Nat) (voterAddr : AccAddress) (option : VoteOption) :
    GovM β (Except Error Unit) := do
  let some proposal ← getProposal proposalID | return .error (errUnknownProposal k.codespace proposalID)
  if proposal.status ≠ .votingPeriod then return .error (errInactiveProposal k.codespace proposalID)
  if !validVoteOption option then return .error (errInvalidVote k.codespace option)
  modifyStore (·.setVote proposalID voterAddr ⟨voterAddr, proposalID, option⟩)
  return .ok ()

/-- `AddDeposit`: the coins go to `DepositedCoinsAccAddr` and onto the proposal's total and the
depositor's deposit; a proposal collecting deposits whose total reaches the minimum deposit starts its
voting period, which the result says. -/
def addDeposit (k : Keeper β) (blockTime : Int) (proposalID : Nat) (depositorAddr : AccAddress)
    (depositAmount : Coins) : GovM β (Except Error Bool) := do
  let some proposal ← getProposal proposalID | return .error (errUnknownProposal k.codespace proposalID)
  if proposal.status ≠ .depositPeriod ∧ proposal.status ≠ .votingPeriod then
    return .error (errAlreadyFinishedProposal k.codespace proposalID)
  match ← liftBank (k.sendCoins blockTime depositorAddr k.depositedCoinsAccAddr depositAmount) with
  | .error err => return .error err
  | .ok () =>
    let proposal := { proposal with totalDeposit := ← proposal.totalDeposit.add depositAmount }
    setProposal proposal
    let activatedVotingPeriod ← (if proposal.status = .depositPeriod then do
        -- `IsAllGTE` runs only on a proposal collecting deposits
        if ← proposal.totalDeposit.isAllGTE (← getStore).depositParams.minDeposit then
          activateVotingPeriod blockTime proposal
          pure true
        else pure false
      else pure false)
    match (← getStore).deposits.lookup (proposalID, depositorAddr) with
    | none => modifyStore (·.setDeposit proposalID depositorAddr depositAmount)
    | some currDeposit =>
      let amount ← currDeposit.add depositAmount
      modifyStore (·.setDeposit proposalID depositorAddr amount)
    return .ok activatedVotingPeriod

/-- The walk `RefundDeposits` and `DeleteDeposits` share: each deposit of the proposal, in key order, is
sent from `DepositedCoinsAccAddr` to the recipient the depositor names, and deleted. -/
def drainDeposits (k : Keeper β) (blockTime : Int) (recipient : AccAddress → AccAddress)
    (proposalID : Nat) : GovM β Unit := do
  let deposits := (← getStore).getDeposits proposalID
  deposits.forM fun deposit => do
    match ← liftBank (k.sendCoins blockTime k.depositedCoinsAccAddr (recipient deposit.1) deposit.2) with
    | .error _ => throw (.other "should not happen")
    | .ok () => modifyStore (·.eraseDeposit proposalID deposit.1)

/-- `RefundDeposits`: every deposit goes back to its depositor. -/
def refundDeposits (k : Keeper β) (blockTime : Int) (proposalID : Nat) : GovM β Unit :=
  drainDeposits k blockTime id proposalID

/-- `DeleteDeposits`: every deposit goes to `BurnedDepositCoinsAccAddr`. -/
def deleteDeposits (k : Keeper β) (blockTime : Int) (proposalID : Nat) : GovM β Unit :=
  drainDeposits k blockTime (fun _ => k.burnedDepositCoinsAccAddr) proposalID

/-! ### Agreement at a proposal -/

namespace GovStore

/-- Two stores agree at a proposal ID: on its proposal, its queue entries, its deposits and its votes.
Every write of the keeper but `getNewProposalID`'s touches one proposal ID only. -/
structure SameAt (st st' : GovStore) (proposalID : Nat) : Prop where
  proposal : st'.proposals.lookup proposalID = st.proposals.lookup proposalID
  queue : ∀ q t, (st'.queue q).lookup (toLex (t, proposalID)) = (st.queue q).lookup (toLex (t, proposalID))
  deposit : ∀ a, st'.deposits.lookup (proposalID, a) = st.deposits.lookup (proposalID, a)
  vote : ∀ a, st'.votes.lookup (proposalID, a) = st.votes.lookup (proposalID, a)

namespace SameAt

variable {st st₁ st₂ : GovStore} {id : Nat}

theorem refl (st : GovStore) (id : Nat) : st.SameAt st id :=
  ⟨rfl, fun _ _ => rfl, fun _ => rfl, fun _ => rfl⟩

theorem trans (h₁ : st.SameAt st₁ id) (h₂ : st₁.SameAt st₂ id) : st.SameAt st₂ id :=
  ⟨h₂.proposal.trans h₁.proposal, fun q t => (h₂.queue q t).trans (h₁.queue q t),
    fun a => (h₂.deposit a).trans (h₁.deposit a), fun a => (h₂.vote a).trans (h₁.vote a)⟩

end SameAt

variable (st : GovStore) {id : Nat}

theorem sameAt_setProposal {proposal : Proposal} (h : id ≠ proposal.proposalID) :
    st.SameAt (st.setProposal proposal) id :=
  ⟨Finmap.lookup_insert_of_ne _ h, fun _ _ => rfl, fun _ => rfl, fun _ => rfl⟩

theorem sameAt_eraseProposal {proposalID : Nat} (h : id ≠ proposalID) :
    st.SameAt (st.eraseProposal proposalID) id :=
  ⟨Finmap.lookup_erase_ne h, fun _ _ => rfl, fun _ => rfl, fun _ => rfl⟩

theorem sameAt_setDeposit {proposalID : Nat} (depositorAddr : AccAddress) (amount : Coins)
    (h : id ≠ proposalID) : st.SameAt (st.setDeposit proposalID depositorAddr amount) id :=
  ⟨rfl, fun _ _ => rfl, fun _ => Finmap.lookup_insert_of_ne _ (by simp [h]), fun _ => rfl⟩

theorem sameAt_setVote {proposalID : Nat} (voterAddr : AccAddress) (vote : Vote AccAddress)
    (h : id ≠ proposalID) : st.SameAt (st.setVote proposalID voterAddr vote) id :=
  ⟨rfl, fun _ _ => rfl, fun _ => rfl, fun _ => Finmap.lookup_insert_of_ne _ (by simp [h])⟩

theorem sameAt_insertQueue (q : ProposalQueue) (endTime : Int) {proposalID : Nat}
    (h : id ≠ proposalID) : st.SameAt (st.insertQueue q endTime proposalID) id where
  proposal := rfl
  queue q' t := by
    rw [insertQueue_queue, Function.update_apply]
    split_ifs with hq
    · subst hq
      exact Finmap.lookup_insert_of_ne _ (by simp [h])
    · rfl
  deposit _ := rfl
  vote _ := rfl

theorem sameAt_removeFromQueue (q : ProposalQueue) (endTime : Int) {proposalID : Nat}
    (h : id ≠ proposalID) : st.SameAt (st.removeFromQueue q endTime proposalID) id where
  proposal := rfl
  queue q' t := by
    rw [removeFromQueue_queue, Function.update_apply]
    split_ifs with hq
    · subst hq
      exact Finmap.lookup_erase_ne (by simp [h])
    · rfl
  deposit _ := rfl
  vote _ := rfl

end GovStore

/-! ### Runs of the functions -/

variable {s s' : GovState β}

@[simp] theorem getStore_eq_ok {st : GovStore} :
    (getStore : GovM β GovStore) s = .ok (st, s') ↔ s.store = st ∧ s = s' := by
  show Except.ok (s.store, s) = _ ↔ _
  simp

@[simp] theorem modifyStore_eq_ok {f : GovStore → GovStore} {u : Unit} :
    (modifyStore f : GovM β Unit) s = .ok (u, s') ↔ s' = { s with store := f s.store } :=
  modify_eq_ok

@[simp] theorem getProposal_eq_ok {proposalID : Nat} {r : Option Proposal} :
    (getProposal proposalID : GovM β (Option Proposal)) s = .ok (r, s') ↔
      s.store.proposals.lookup proposalID = r ∧ s = s' := by
  show Except.ok (s.store.proposals.lookup proposalID, s) = _ ↔ _
  simp

@[simp] theorem setProposal_eq_ok {proposal : Proposal} {u : Unit} :
    (setProposal proposal : GovM β Unit) s = .ok (u, s') ↔
      s' = { s with store := s.store.setProposal proposal } :=
  modify_eq_ok

@[simp] theorem insertActiveProposalQueue_eq_ok {endTime : Int} {proposalID : Nat} {u : Unit} :
    (insertActiveProposalQueue endTime proposalID : GovM β Unit) s = .ok (u, s') ↔
      s' = { s with store := s.store.insertQueue .active endTime proposalID } :=
  modify_eq_ok

@[simp] theorem insertInactiveProposalQueue_eq_ok {endTime : Int} {proposalID : Nat} {u : Unit} :
    (insertInactiveProposalQueue endTime proposalID : GovM β Unit) s = .ok (u, s') ↔
      s' = { s with store := s.store.insertQueue .inactive endTime proposalID } :=
  modify_eq_ok

@[simp] theorem removeFromActiveProposalQueue_eq_ok {endTime : Int} {proposalID : Nat} {u : Unit} :
    (removeFromActiveProposalQueue endTime proposalID : GovM β Unit) s = .ok (u, s') ↔
      s' = { s with store := s.store.removeFromQueue .active endTime proposalID } :=
  modify_eq_ok

@[simp] theorem removeFromInactiveProposalQueue_eq_ok {endTime : Int} {proposalID : Nat} {u : Unit} :
    (removeFromInactiveProposalQueue endTime proposalID : GovM β Unit) s = .ok (u, s') ↔
      s' = { s with store := s.store.removeFromQueue .inactive endTime proposalID } :=
  modify_eq_ok

@[simp] theorem liftBank_eq_ok {α : Type} {m : StateT β (Except Panic) α} {a : α} :
    liftBank m s = .ok (a, s') ↔ ∃ bank, m s.bank = .ok (a, bank) ∧ s' = { s with bank := bank } := by
  unfold liftBank
  cases m s.bank with
  | error e => simp [bind, Except.bind]
  | ok p =>
    obtain ⟨b, bank⟩ := p
    simp [bind, Except.bind, pure, Except.pure, eq_comm]

/-! ### What each function does -/

theorem getNewProposalID_eq_ok {k : Keeper β} {r : Except Error Nat}
    (h : getNewProposalID k s = .ok (r, s')) :
    (s.store.nextProposalID = none ∧ (∃ err, r = .error err) ∧ s' = s) ∨
      ∃ n, s.store.nextProposalID = some n ∧ r = .ok n ∧
        s' = { s with store := { s.store with nextProposalID := some ((n + 1) % 2 ^ 64) } } := by
  unfold getNewProposalID at h
  rw [bind_eq_ok] at h
  obtain ⟨st, s₁, h₁, h⟩ := h
  obtain ⟨rfl, rfl⟩ := getStore_eq_ok.1 h₁
  cases hnext : s.store.nextProposalID with
  | none =>
    simp only [hnext, pure_eq_ok] at h
    exact .inl ⟨rfl, ⟨_, h.1.symm⟩, h.2.symm⟩
  | some n =>
    simp only [hnext] at h
    obtain ⟨_, s₂, h₂, h⟩ := bind_eq_ok.1 h
    obtain ⟨rfl, rfl⟩ := pure_eq_ok.1 h
    exact .inr ⟨n, rfl, rfl, modifyStore_eq_ok.1 h₂⟩

/-- A new proposal takes the next ID, collects deposits until the deposit period is over, starting from
none, and is in the inactive queue at that time. -/
theorem newTextProposal_eq_ok {k : Keeper β} {blockTime : Int} {title description : String}
    {proposalType : ProposalKind} {r : Option Proposal}
    (h : newTextProposal k blockTime title description proposalType s = .ok (r, s')) :
    (r = none ∧ s' = s) ∨
      ∃ n proposal, s.store.nextProposalID = some n ∧ r = some proposal ∧ proposal.proposalID = n ∧
        proposal.status = .depositPeriod ∧
        proposal.depositEndTime = blockTime + s.store.depositParams.maxDepositPeriod ∧
        proposal.totalDeposit = [] ∧
        s' = { s with store := (({ s.store with nextProposalID := some ((n + 1) % 2 ^ 64) }).setProposal
          proposal).insertQueue .inactive proposal.depositEndTime n } := by
  unfold newTextProposal at h
  rw [bind_eq_ok] at h
  obtain ⟨id, s₁, h₁, h⟩ := h
  rcases getNewProposalID_eq_ok h₁ with ⟨-, ⟨err, rfl⟩, rfl⟩ | ⟨n, hnext, rfl, rfl⟩
  · obtain ⟨rfl, rfl⟩ := pure_eq_ok.1 h
    exact .inl ⟨rfl, rfl⟩
  · simp only at h
    obtain ⟨st, s₂, h₂, h⟩ := bind_eq_ok.1 h
    obtain ⟨rfl, rfl⟩ := getStore_eq_ok.1 h₂
    obtain ⟨_, s₃, h₃, h⟩ := bind_eq_ok.1 h
    obtain ⟨_, s₄, h₄, h⟩ := bind_eq_ok.1 h
    obtain ⟨rfl, rfl⟩ := pure_eq_ok.1 h
    rw [setProposal_eq_ok] at h₃
    rw [insertInactiveProposalQueue_eq_ok] at h₄
    subst h₃ h₄
    exact .inr ⟨n, _, hnext, rfl, rfl, rfl, rfl, rfl, rfl⟩

/-- `DeleteProposal` of a stored proposal: out of both queues at its times, and out of the store. -/
theorem deleteProposal_eq_ok {proposalID : Nat} {u : Unit}
    (h : (deleteProposal proposalID : GovM β Unit) s = .ok (u, s')) :
    ∃ proposal, s.store.proposals.lookup proposalID = some proposal ∧
      s' = { s with store := ((s.store.removeFromQueue .inactive proposal.depositEndTime proposalID).removeFromQueue
        .active proposal.votingEndTime proposalID).eraseProposal proposalID } := by
  unfold deleteProposal at h
  rw [bind_eq_ok] at h
  obtain ⟨found, s₁, h₁, h⟩ := h
  obtain ⟨hfound, rfl⟩ := getProposal_eq_ok.1 h₁
  cases found with
  | none => exact absurd h throw_ne_ok
  | some proposal =>
    obtain ⟨_, s₂, h₂, h⟩ := bind_eq_ok.1 h
    obtain ⟨_, s₃, h₃, h⟩ := bind_eq_ok.1 h
    rw [removeFromInactiveProposalQueue_eq_ok] at h₂
    rw [removeFromActiveProposalQueue_eq_ok] at h₃
    rw [modifyStore_eq_ok] at h
    subst h₂ h₃ h
    exact ⟨proposal, hfound, rfl⟩

/-- The store after `activateVotingPeriod`. -/
def GovStore.activated (st : GovStore) (blockTime : Int) (proposal : Proposal) : GovStore :=
  let proposal := { proposal with votingStartTime := blockTime,
                                  votingEndTime := blockTime + st.votingParams.votingPeriod,
                                  status := .votingPeriod }
  ((st.setProposal proposal).removeFromQueue .inactive proposal.depositEndTime proposal.proposalID).insertQueue
    .active proposal.votingEndTime proposal.proposalID

@[simp] theorem GovStore.activated_deposits (st : GovStore) (blockTime : Int) (proposal : Proposal) :
    (st.activated blockTime proposal).deposits = st.deposits := rfl

@[simp] theorem GovStore.activated_votes (st : GovStore) (blockTime : Int) (proposal : Proposal) :
    (st.activated blockTime proposal).votes = st.votes := rfl

@[simp] theorem GovStore.activated_nextProposalID (st : GovStore) (blockTime : Int) (proposal : Proposal) :
    (st.activated blockTime proposal).nextProposalID = st.nextProposalID := rfl

theorem activateVotingPeriod_eq (blockTime : Int) (proposal : Proposal) (s : GovState β) :
    activateVotingPeriod blockTime proposal s =
      .ok ((), { s with store := s.store.activated blockTime proposal }) := rfl

/-- `AddVote` writes the vote of a proposal in its voting period, or nothing. -/
theorem addVote_eq_ok {k : Keeper β} {proposalID : Nat} {voterAddr : AccAddress} {option : VoteOption}
    {r : Except Error Unit} (h : addVote k proposalID voterAddr option s = .ok (r, s')) :
    s' = s ∨ ∃ proposal, s.store.proposals.lookup proposalID = some proposal ∧
      proposal.status = .votingPeriod ∧ r = .ok () ∧
      s' = { s with store := s.store.setVote proposalID voterAddr ⟨voterAddr, proposalID, option⟩ } := by
  unfold addVote at h
  rw [bind_eq_ok] at h
  obtain ⟨found, s₁, h₁, h⟩ := h
  obtain ⟨hfound, rfl⟩ := getProposal_eq_ok.1 h₁
  cases found with
  | none => exact .inl (pure_eq_ok.1 h).2.symm
  | some proposal =>
    dsimp only at h
    split at h
    · exact .inl (pure_eq_ok.1 h).2.symm
    rename_i hstatus
    split at h
    · exact .inl (pure_eq_ok.1 h).2.symm
    obtain ⟨_, s₂, h₂, h⟩ := bind_eq_ok.1 h
    obtain ⟨rfl, rfl⟩ := pure_eq_ok.1 h
    exact .inr ⟨proposal, hfound, not_not.1 hstatus, rfl, modifyStore_eq_ok.1 h₂⟩

/-- `AddDeposit` that returns an error leaves the store as it was; one that returns a verdict found the
proposal collecting deposits or being voted on, moved the coins, added them to its total and to the
depositor's deposit, and started the voting period if it said so. -/
theorem addDeposit_eq_ok {k : Keeper β} {blockTime : Int} {proposalID : Nat} {depositorAddr : AccAddress}
    {depositAmount : Coins} {r : Except Error Bool}
    (h : addDeposit k blockTime proposalID depositorAddr depositAmount s = .ok (r, s')) :
    (∃ err, r = .error err ∧ s'.store = s.store ∧
        (s'.bank = s.bank ∨
          k.sendCoins blockTime depositorAddr k.depositedCoinsAccAddr depositAmount s.bank = .ok (.error err, s'.bank))) ∨
      ∃ proposal totalDeposit amount activated,
        r = .ok activated ∧ s.store.proposals.lookup proposalID = some proposal ∧
        (proposal.status = .depositPeriod ∨ proposal.status = .votingPeriod) ∧
        k.sendCoins blockTime depositorAddr k.depositedCoinsAccAddr depositAmount s.bank =
          .ok (.ok (), s'.bank) ∧
        proposal.totalDeposit.add depositAmount = .ok totalDeposit ∧
        (activated = true → proposal.status = .depositPeriod) ∧
        ((s.store.deposits.lookup (proposalID, depositorAddr) = none ∧ amount = depositAmount) ∨
          ∃ currDeposit, s.store.deposits.lookup (proposalID, depositorAddr) = some currDeposit ∧
            currDeposit.add depositAmount = .ok amount) ∧
        s'.store = (if activated then
            (s.store.setProposal { proposal with totalDeposit := totalDeposit }).activated blockTime
              { proposal with totalDeposit := totalDeposit }
          else s.store.setProposal { proposal with totalDeposit := totalDeposit }).setDeposit
            proposalID depositorAddr amount := by
  unfold addDeposit at h
  rw [bind_eq_ok] at h
  obtain ⟨found, s₁, h₁, h⟩ := h
  obtain ⟨hfound, rfl⟩ := getProposal_eq_ok.1 h₁
  cases found with
  | none =>
    obtain ⟨rfl, rfl⟩ := pure_eq_ok.1 h
    exact .inl ⟨_, rfl, rfl, .inl rfl⟩
  | some proposal =>
  dsimp only at h
  split at h
  · obtain ⟨rfl, rfl⟩ := pure_eq_ok.1 h
    exact .inl ⟨_, rfl, rfl, .inl rfl⟩
  rename_i hstatus
  rw [bind_eq_ok] at h
  obtain ⟨sent, s₂, h₂, h⟩ := h
  obtain ⟨bank, hsend, rfl⟩ := liftBank_eq_ok.1 h₂
  cases sent with
  | error err =>
    -- the bank refused the deposit; what it wrote before refusing stays
    obtain ⟨rfl, rfl⟩ := pure_eq_ok.1 h
    exact .inl ⟨_, rfl, rfl, .inr hsend⟩
  | ok u =>
  rw [lift_bind_eq_ok] at h
  obtain ⟨totalDeposit, htotal, h⟩ := h
  rw [bind_eq_ok] at h
  obtain ⟨_, s₃, h₃, h⟩ := h
  rw [setProposal_eq_ok] at h₃
  subst h₃
  rw [bind_eq_ok] at h
  obtain ⟨activated, s₄, h₄, h⟩ := h
  -- the voting period starts only for a proposal collecting deposits
  have hact : (activated = true → proposal.status = .depositPeriod) ∧ s₄.bank = bank ∧
      s₄.store = if activated then
          (s.store.setProposal { proposal with totalDeposit := totalDeposit }).activated blockTime
            { proposal with totalDeposit := totalDeposit }
        else s.store.setProposal { proposal with totalDeposit := totalDeposit } := by
    split at h₄
    · rename_i hdeposit
      rw [bind_eq_ok] at h₄
      obtain ⟨st, s₅, h₅, h₄⟩ := h₄
      obtain ⟨rfl, rfl⟩ := getStore_eq_ok.1 h₅
      rw [lift_bind_eq_ok] at h₄
      obtain ⟨gte, -, h₄⟩ := h₄
      split at h₄
      · rw [bind_eq_ok] at h₄
        obtain ⟨_, s₆, h₆, h₄⟩ := h₄
        rw [activateVotingPeriod_eq] at h₆
        cases h₆
        obtain ⟨rfl, rfl⟩ := pure_eq_ok.1 h₄
        exact ⟨fun _ => hdeposit, rfl, rfl⟩
      · obtain ⟨rfl, rfl⟩ := pure_eq_ok.1 h₄
        exact ⟨nofun, rfl, rfl⟩
    · obtain ⟨rfl, rfl⟩ := pure_eq_ok.1 h₄
      exact ⟨nofun, rfl, rfl⟩
  obtain ⟨hactDeposit, hbank₄, hstore₄⟩ := hact
  rw [bind_eq_ok] at h
  obtain ⟨st, s₅, h₅, h⟩ := h
  obtain ⟨rfl, rfl⟩ := getStore_eq_ok.1 h₅
  have hdeposits : s₄.store.deposits = s.store.deposits := by
    rw [hstore₄]
    split <;> rfl
  have hstatus' : proposal.status = .depositPeriod ∨ proposal.status = .votingPeriod :=
    (not_and_or.1 hstatus).imp not_not.1 not_not.1
  obtain ⟨amount, hamount, h⟩ : ∃ amount,
      ((s.store.deposits.lookup (proposalID, depositorAddr) = none ∧ amount = depositAmount) ∨
        ∃ currDeposit, s.store.deposits.lookup (proposalID, depositorAddr) = some currDeposit ∧
          currDeposit.add depositAmount = .ok amount) ∧
      (modifyStore (·.setDeposit proposalID depositorAddr amount) >>= fun _ =>
        (pure (.ok activated) : GovM β (Except Error Bool))) s₄ = .ok (r, s') := by
    simp only [hdeposits] at h
    cases hdep : s.store.deposits.lookup (proposalID, depositorAddr) with
    | none =>
      rw [hdep] at h
      exact ⟨depositAmount, .inl ⟨rfl, rfl⟩, h⟩
    | some currDeposit =>
      rw [hdep] at h
      dsimp only at h
      rw [lift_bind_eq_ok] at h
      obtain ⟨amount, hadd, h⟩ := h
      exact ⟨amount, .inr ⟨currDeposit, rfl, hadd⟩, h⟩
  rw [bind_eq_ok] at h
  obtain ⟨_, s₆, h₆, h⟩ := h
  obtain ⟨rfl, rfl⟩ := pure_eq_ok.1 h
  rw [modifyStore_eq_ok] at h₆
  subst h₆
  refine .inr ⟨proposal, totalDeposit, amount, activated, rfl, hfound, hstatus', ?_, htotal, hactDeposit,
    hamount, by rw [hstore₄]⟩
  rw [hbank₄]
  exact hsend

/-- `AddDeposit` leaves the next ID as it was. -/
theorem addDeposit_nextProposalID {k : Keeper β} {blockTime : Int} {proposalID : Nat}
    {depositorAddr : AccAddress} {depositAmount : Coins} {r : Except Error Bool}
    (h : addDeposit k blockTime proposalID depositorAddr depositAmount s = .ok (r, s')) :
    s'.store.nextProposalID = s.store.nextProposalID := by
  rcases addDeposit_eq_ok h with ⟨-, -, hstore, -⟩ | ⟨p, total, amount, activated, -, -, -, -, -, -, -, hstore⟩
  · rw [hstore]
  · rw [hstore]
    cases activated <;> rfl

/-! ### The entries under one proposal ID -/

section Prefix

variable {A V : Type} [DecidableEq A] {m m' : MemDB (Nat × A) V} {id : Nat}

/-- The addresses `GetDeposits` and `GetVotes` walk under a proposal ID are those with an entry there. -/
theorem mem_image_snd_filter {a : A} :
    a ∈ (m.keys.filter (·.1 = id)).image Prod.snd ↔ (id, a) ∈ m := by
  simp only [Finset.mem_image, Finset.mem_filter, Finmap.mem_keys, Prod.exists]
  constructor
  · rintro ⟨i, b, ⟨hmem, rfl⟩, rfl⟩
    exact hmem
  · intro hmem
    exact ⟨id, a, ⟨hmem, rfl⟩, rfl⟩

theorem image_snd_filter_congr (h : ∀ a, m.lookup (id, a) = m'.lookup (id, a)) :
    (m.keys.filter (·.1 = id)).image Prod.snd = (m'.keys.filter (·.1 = id)).image Prod.snd := by
  ext a
  rw [mem_image_snd_filter, mem_image_snd_filter, ← Finmap.lookup_isSome, ← Finmap.lookup_isSome, h]

/-- The walks of `GetDeposits` and `GetVotes`: over a list of the addresses with an entry under the ID,
each address with its entry. -/
theorem mem_filterMap_lookup {l : List A} (hl : ∀ a, a ∈ l ↔ (id, a) ∈ m) {a : A} {v : V} :
    (a, v) ∈ l.filterMap (fun a => (m.lookup (id, a)).map (a, ·)) ↔ m.lookup (id, a) = some v := by
  simp only [List.mem_filterMap, Option.map_eq_some_iff, Prod.mk.injEq]
  constructor
  · rintro ⟨_, -, _, h, rfl, rfl⟩
    exact h
  · intro h
    exact ⟨a, (hl a).2 (Finmap.lookup_isSome.1 (by simp [h])), v, h, rfl, rfl⟩

/-- The walk of `GetVotes`, whose entries are records: each entry under the ID. -/
theorem mem_filterMap_lookup_entry {l : List A} (hl : ∀ a, a ∈ l ↔ (id, a) ∈ m) {v : V} :
    v ∈ l.filterMap (fun a => m.lookup (id, a)) ↔ ∃ a, m.lookup (id, a) = some v := by
  rw [List.mem_filterMap]
  constructor
  · rintro ⟨a, -, h⟩
    exact ⟨a, h⟩
  · rintro ⟨a, h⟩
    exact ⟨a, (hl a).2 (Finmap.lookup_isSome.1 (by simp [h])), h⟩

end Prefix

/-! ### Walking a proposal's deposits -/

theorem GovStore.mem_getDeposits {st : GovStore} {proposalID : Nat} {depositor : AccAddress}
    {amount : Coins} :
    (depositor, amount) ∈ st.getDeposits proposalID ↔
      st.deposits.lookup (proposalID, depositor) = some amount :=
  mem_filterMap_lookup fun a => by simp only [List.mem_mergeSort, Finset.mem_sort, mem_image_snd_filter]

/-- Every depositor of the proposal is walked. -/
theorem GovStore.mem_getDeposits_map {st : GovStore} {proposalID : Nat} {depositor : AccAddress} :
    depositor ∈ (st.getDeposits proposalID).map Prod.fst ↔
      st.deposits.lookup (proposalID, depositor) ≠ none := by
  rw [List.mem_map]
  constructor
  · rintro ⟨⟨_, amount⟩, h, rfl⟩
    simp [mem_getDeposits.1 h]
  · intro h
    obtain ⟨amount, hamount⟩ := Option.ne_none_iff_exists'.1 h
    exact ⟨(depositor, amount), mem_getDeposits.2 hamount, rfl⟩

/-- The walk deletes every deposit of the proposal, and no other. -/
theorem GovStore.eraseDeposits_lookup (st : GovStore) (proposalID i : Nat) (a : AccAddress) :
    (st.eraseDeposits proposalID).deposits.lookup (i, a) =
      if i = proposalID then none else st.deposits.lookup (i, a) := by
  rw [eraseDeposits, Finmap.lookup_foldl_erase]
  by_cases hi : i = proposalID
  · subst hi
    by_cases ha : a ∈ (st.getDeposits i).map Prod.fst
    · simp [List.mem_map.1 ha]
    · -- a depositor the walk skips holds no deposit
      have hnone := not_not.1 (mt mem_getDeposits_map.2 ha)
      simp [hnone]
  · have hkey : (i, a) ∉ (st.getDeposits proposalID).map fun deposit => (proposalID, deposit.1) := by
      simp [Ne.symm hi]
    simp [hkey, hi]

theorem GovStore.sameAt_eraseDeposits (st : GovStore) {proposalID id : Nat} (h : id ≠ proposalID) :
    st.SameAt (st.eraseDeposits proposalID) id :=
  ⟨rfl, fun _ _ => rfl, fun a => by rw [eraseDeposits_lookup, if_neg h], fun _ => rfl⟩

/-- Sends that all succeed, each from, to and amount in turn, from one bank state to the last. -/
def SendsAll (send : AccAddress → AccAddress → Coins → StateT β (Except Panic) (Except Error Unit))
    (transfers : List (AccAddress × AccAddress × Coins)) (bank bank' : β) : Prop :=
  Chain (fun transfer b b' => send transfer.1 transfer.2.1 transfer.2.2 b = .ok (.ok (), b'))
    transfers bank bank'

theorem SendsAll.append {send : AccAddress → AccAddress → Coins → StateT β (Except Panic) (Except Error Unit)}
    {transfers transfers' : List (AccAddress × AccAddress × Coins)} {bank₁ bank₂ bank₃ : β}
    (h₁ : SendsAll send transfers bank₁ bank₂) (h₂ : SendsAll send transfers' bank₂ bank₃) :
    SendsAll send (transfers ++ transfers') bank₁ bank₃ :=
  Chain.append h₁ h₂

/-- A walk of the deposits that returns sent each deposit from `DepositedCoinsAccAddr` to its
recipient, in key order, and deleted it. -/
theorem drainDeposits_eq_ok {k : Keeper β} {blockTime : Int} {recipient : AccAddress → AccAddress}
    {proposalID : Nat} {u : Unit} (h : drainDeposits k blockTime recipient proposalID s = .ok (u, s')) :
    SendsAll (k.sendCoins blockTime) ((s.store.getDeposits proposalID).map fun deposit =>
        (k.depositedCoinsAccAddr, recipient deposit.1, deposit.2)) s.bank s'.bank ∧
      s'.store = s.store.eraseDeposits proposalID := by
  unfold drainDeposits at h
  rw [bind_eq_ok] at h
  obtain ⟨st, s₁, h₁, h⟩ := h
  obtain ⟨rfl, rfl⟩ := getStore_eq_ok.1 h₁
  have hchain := forM_chain h
  clear h h₁
  unfold GovStore.eraseDeposits
  generalize s.store.getDeposits proposalID = deposits at hchain ⊢
  induction hchain with
  | nil s => exact ⟨.nil _, rfl⟩
  | @cons deposit deposits s₁ s₂ s₃ hstep _ ih =>
    obtain ⟨_, hstep⟩ := hstep
    rw [bind_eq_ok] at hstep
    obtain ⟨sent, s₄, h₄, hstep⟩ := hstep
    obtain ⟨bank, hsend, rfl⟩ := liftBank_eq_ok.1 h₄
    cases sent with
    | error _ => exact absurd hstep throw_ne_ok
    | ok u =>
    rw [modifyStore_eq_ok] at hstep
    subst hstep
    obtain ⟨hsends, hstore⟩ := ih
    exact ⟨.cons hsend hsends, by rw [hstore]; rfl⟩

end CosmosSdk.Gov
