import CosmosSdk.Gov.Keeper
import CosmosSdk.Lib.GoText

/-!
# Governance messages, the end blocker and genesis

The three messages of `x/gov/msgs.go` with their `ValidateBasic`, the handler of `x/gov/handler.go`,
`EndBlocker` of `x/gov/endblocker.go`, and `InitGenesis`, `ExportGenesis` and `GetProposalsFiltered`
(`x/gov/genesis.go`, `x/gov/keeper.go`).

The end blocker walks the inactive queue up to the block time, deleting each proposal with its
deposits burned, and then the active queue up to the block time, tallying each proposal, refunding or
burning its deposits by the verdict, and storing it as passed or rejected.  Each walk reads its queue
as it was when its iterator was opened: the walk deletes from the queue it walks, and its iterator,
over the block's cache, does not see those writes.
-/

namespace CosmosSdk.Gov

open CosmosSdk.Types Auth StateExcept

/-! ### Messages -/

/-- `MaxTitleLength`. -/
def maxTitleLength : Nat := 140

/-- `MaxDescriptionLength`. -/
def maxDescriptionLength : Nat := 5000

/-- `DefaultCodespace`. -/
def defaultCodespace : String := "gov"

/-- `MsgSubmitProposal`. -/
structure MsgSubmitProposal where
  title : String
  description : String
  proposalType : ProposalKind
  proposer : AccAddress
  initialDeposit : Coins

/-- `MsgDeposit`. -/
structure MsgDeposit where
  proposalID : Nat
  depositor : AccAddress
  amount : Coins

/-- `MsgVote`. -/
structure MsgVote where
  proposalID : Nat
  voter : AccAddress
  option : VoteOption

/-- The messages the handler routes. -/
inductive Msg where
  | submitProposal (msg : MsgSubmitProposal)
  | deposit (msg : MsgDeposit)
  | vote (msg : MsgVote)

/-- `validProposalType`. -/
def validProposalType : ProposalKind → Bool
  | .text | .parameterChange | .softwareUpgrade => true
  | .nil => false

/-- `ProposalKind.String`. -/
def ProposalKind.toString : ProposalKind → String
  | .text => "Text"
  | .parameterChange => "ParameterChange"
  | .softwareUpgrade => "SoftwareUpgrade"
  | .nil => ""

/-- `ErrInvalidTitle`. -/
def errInvalidTitle (codespace msg : String) : Error := ⟨codespace, 6, msg⟩

/-- `ErrInvalidDescription`. -/
def errInvalidDescription (codespace msg : String) : Error := ⟨codespace, 7, msg⟩

/-- `ErrInvalidProposalType`. -/
def errInvalidProposalType (codespace : String) (proposalType : ProposalKind) : Error :=
  ⟨codespace, 8, "Proposal Type '" ++ proposalType.toString ++ "' is not valid"⟩

/-- The checks of coins every message with coins makes; an empty address prints as the empty text. -/
def validateCoins (coins : Coins) : Option Error :=
  if !coins.isValid then some (errInvalidCoins coins.toString)
  else if coins.isAnyNegative then some (errInvalidCoins coins.toString)
  else none

/-- `MsgSubmitProposal.ValidateBasic`; lengths are in bytes. -/
def MsgSubmitProposal.validateBasic (msg : MsgSubmitProposal) : Option Error :=
  let titleLength := GoStrings.byteLen msg.title.toList
  let descriptionLength := GoStrings.byteLen msg.description.toList
  if titleLength = 0 then some (errInvalidTitle defaultCodespace "No title present in proposal")
  else if maxTitleLength < titleLength then
    some (errInvalidTitle defaultCodespace
      ("Proposal title is longer than max length of " ++ toString maxTitleLength))
  else if descriptionLength = 0 then
    some (errInvalidDescription defaultCodespace "No description present in proposal")
  else if maxDescriptionLength < descriptionLength then
    some (errInvalidDescription defaultCodespace
      ("Proposal description is longer than max length of " ++ toString maxDescriptionLength))
  else if !validProposalType msg.proposalType then
    some (errInvalidProposalType defaultCodespace msg.proposalType)
  else if msg.proposer.isEmpty then some (errInvalidAddress "")
  else validateCoins msg.initialDeposit

/-- `MsgDeposit.ValidateBasic`; its check of a negative ID never fails on a `uint64`. -/
def MsgDeposit.validateBasic (msg : MsgDeposit) : Option Error :=
  if msg.depositor.isEmpty then some (errInvalidAddress "")
  else validateCoins msg.amount

/-- `MsgVote.ValidateBasic`. -/
def MsgVote.validateBasic (msg : MsgVote) : Option Error :=
  if msg.voter.isEmpty then some (errInvalidAddress "")
  else if !validVoteOption msg.option then some (errInvalidVote defaultCodespace msg.option)
  else none

/-- `ValidateBasic` of a message. -/
def Msg.validateBasic : Msg → Option Error
  | .submitProposal msg => msg.validateBasic
  | .deposit msg => msg.validateBasic
  | .vote msg => msg.validateBasic

/-- `MsgSubmitProposal.GetSigners`. -/
def MsgSubmitProposal.getSigners (msg : MsgSubmitProposal) : List AccAddress := [msg.proposer]

/-- `MsgDeposit.GetSigners`. -/
def MsgDeposit.getSigners (msg : MsgDeposit) : List AccAddress := [msg.depositor]

/-- `MsgVote.GetSigners`. -/
def MsgVote.getSigners (msg : MsgVote) : List AccAddress := [msg.voter]

/-- `GetSigners` of a message: the addresses whose signatures the ante handler asks for before the
handler runs. -/
def Msg.getSigners : Msg → List AccAddress
  | .submitProposal msg => msg.getSigners
  | .deposit msg => msg.getSigners
  | .vote msg => msg.getSigners

/-! ### The handler -/

/-- Amino's `uvarint`, the encoding of a `uint64`: seven bits a byte, the low ones first, the high bit
set on every byte but the last. -/
def uvarint (n : Nat) : List UInt8 :=
  if n < 128 then [n.toUInt8] else (n % 128 + 128).toUInt8 :: uvarint (n / 128)
termination_by n
decreasing_by omega

/-- `MustMarshalBinaryLengthPrefixed` of a `uint64`: the length of its encoding, then the encoding. -/
def marshalBinaryLengthPrefixedUint64 (n : Nat) : List UInt8 := uvarint (uvarint n).length ++ uvarint n

/-- The tag keys and values of `x/gov/tags`. -/
def tagProposer : String := "proposer"
/-- `tags.ProposalID`. -/
def tagProposalID : String := "proposal-id"
/-- `tags.VotingPeriodStart`. -/
def tagVotingPeriodStart : String := "voting-period-start"
/-- `tags.Depositor`. -/
def tagDepositor : String := "depositor"
/-- `tags.Voter`. -/
def tagVoter : String := "voter"
/-- `tags.ProposalResult`. -/
def tagProposalResult : String := "proposal-result"
/-- `tags.ActionProposalDropped`. -/
def actionProposalDropped : String := "proposal-dropped"
/-- `tags.ActionProposalPassed`. -/
def actionProposalPassed : String := "proposal-passed"
/-- `tags.ActionProposalRejected`. -/
def actionProposalRejected : String := "proposal-rejected"

variable {β : Type} (k : Keeper β)

/-- `handleMsgSubmitProposal`: a new proposal with the proposer's initial deposit; its ID is the
result's data. -/
def handleMsgSubmitProposal (blockTime : Int) (msg : MsgSubmitProposal) : GovM β Result := do
  let some proposal ← newTextProposal k blockTime msg.title msg.description msg.proposalType
    | throw nilDereference
  let proposalID := proposal.proposalID
  let proposalIDStr := toString proposalID
  match ← addDeposit k blockTime proposalID msg.proposer msg.initialDeposit with
  | .error err => return err.result
  | .ok votingStarted =>
    let resTags := [(tagProposer, k.addrString msg.proposer), (tagProposalID, proposalIDStr)]
    let resTags := if votingStarted then resTags ++ [(tagVotingPeriodStart, proposalIDStr)] else resTags
    return { Result.zero with data := marshalBinaryLengthPrefixedUint64 proposalID, tags := resTags }

/-- `handleMsgDeposit`. -/
def handleMsgDeposit (blockTime : Int) (msg : MsgDeposit) : GovM β Result := do
  match ← addDeposit k blockTime msg.proposalID msg.depositor msg.amount with
  | .error err => return err.result
  | .ok votingStarted =>
    let proposalIDStr := toString msg.proposalID
    let resTags := [(tagDepositor, k.addrString msg.depositor), (tagProposalID, proposalIDStr)]
    let resTags := if votingStarted then resTags ++ [(tagVotingPeriodStart, proposalIDStr)] else resTags
    return { Result.zero with tags := resTags }

/-- `handleMsgVote`. -/
def handleMsgVote (msg : MsgVote) : GovM β Result := do
  match ← addVote k msg.proposalID msg.voter msg.option with
  | .error err => return err.result
  | .ok () =>
    return { Result.zero with
      tags := [(tagVoter, k.addrString msg.voter), (tagProposalID, toString msg.proposalID)] }

/-- `NewHandler`. -/
def handler (blockTime : Int) : Msg → GovM β Result
  | .deposit msg => handleMsgDeposit k blockTime msg
  | .submitProposal msg => handleMsgSubmitProposal k blockTime msg
  | .vote msg => handleMsgVote k msg

/-! ### Runs of the handler -/

section Runs

variable {k} {s s' : GovState β} {blockTime : Int} {r : Result}

/-- `handleMsgDeposit` runs `AddDeposit` and writes nothing else. -/
theorem handleMsgDeposit_eq_ok {msg : MsgDeposit} (h : handleMsgDeposit k blockTime msg s = .ok (r, s')) :
    ∃ r', addDeposit k blockTime msg.proposalID msg.depositor msg.amount s = .ok (r', s') := by
  unfold handleMsgDeposit at h
  rw [bind_eq_ok] at h
  obtain ⟨r', s₁, h₁, h⟩ := h
  cases r' <;> exact ⟨_, (pure_eq_ok.1 h).2 ▸ h₁⟩

/-- `handleMsgVote` runs `AddVote` and writes nothing else. -/
theorem handleMsgVote_eq_ok {msg : MsgVote} (h : handleMsgVote k msg s = .ok (r, s')) :
    ∃ r', addVote k msg.proposalID msg.voter msg.option s = .ok (r', s') := by
  unfold handleMsgVote at h
  rw [bind_eq_ok] at h
  obtain ⟨r', s₁, h₁, h⟩ := h
  cases r' <;> exact ⟨_, (pure_eq_ok.1 h).2 ▸ h₁⟩

/-- `handleMsgSubmitProposal` makes a new proposal and runs `AddDeposit` on it with the initial
deposit. -/
theorem handleMsgSubmitProposal_eq_ok {msg : MsgSubmitProposal}
    (h : handleMsgSubmitProposal k blockTime msg s = .ok (r, s')) :
    ∃ proposal s₁ r', newTextProposal k blockTime msg.title msg.description msg.proposalType s =
        .ok (some proposal, s₁) ∧
      addDeposit k blockTime proposal.proposalID msg.proposer msg.initialDeposit s₁ = .ok (r', s') := by
  unfold handleMsgSubmitProposal at h
  rw [bind_eq_ok] at h
  obtain ⟨found, s₁, h₁, h⟩ := h
  cases found with
  | none => exact absurd h throw_ne_ok
  | some proposal =>
    dsimp only at h
    rw [bind_eq_ok] at h
    obtain ⟨r', s₂, h₂, h⟩ := h
    cases r' <;> exact ⟨proposal, s₁, _, h₁, (pure_eq_ok.1 h).2 ▸ h₂⟩

end Runs

/-! ### The end blocker -/

/-- `tally` on the store, which deletes the proposal's votes. -/
def tallyProposal (st : Staking.Store AccAddress) (proposalID : Nat) : GovM β (Bool × TallyResult) := do
  let gov ← getStore
  let (result, tallied) ← tally st ⟨gov.votes, gov.tallyParams⟩ proposalID
  modifyStore fun gov => { gov with votes := tallied.votes }
  pure result

/-- The walk of the inactive queue: each proposal is deleted and its deposits burned. -/
def dropInactiveProposals (blockTime : Int) : List Nat → Tags → GovM β Tags
  | [], resTags => pure resTags
  | proposalID :: proposalIDs, resTags => do
    deleteProposal proposalID
    deleteDeposits k blockTime proposalID
    dropInactiveProposals blockTime proposalIDs
      (resTags ++ [(tagProposalID, toString proposalID), (tagProposalResult, actionProposalDropped)])

/-- The walk of the active queue: each proposal is tallied, its deposits refunded if it passes and
burned if not, and it is stored with its verdict and results and leaves the queue. -/
def tallyActiveProposals (blockTime : Int) (st : Staking.Store AccAddress) :
    List Nat → Tags → GovM β Tags
  | [], resTags => pure resTags
  | proposalID :: proposalIDs, resTags => do
    let some activeProposal ← getProposal proposalID | throw nilDereference
    let (passes, tallyResults) ← tallyProposal st activeProposal.proposalID
    let (status, tagValue) ← (if passes then do
        refundDeposits k blockTime activeProposal.proposalID
        pure (ProposalStatus.passed, actionProposalPassed)
      else do
        deleteDeposits k blockTime activeProposal.proposalID
        pure (ProposalStatus.rejected, actionProposalRejected))
    setProposal { activeProposal with status := status, finalTallyResult := tallyResults }
    removeFromActiveProposalQueue activeProposal.votingEndTime activeProposal.proposalID
    tallyActiveProposals blockTime st proposalIDs
      (resTags ++ [(tagProposalID, toString proposalID), (tagProposalResult, tagValue)])

/-- `EndBlocker`, with the staking store `tally` reads. -/
def endBlocker (blockTime : Int) (st : Staking.Store AccAddress) : GovM β Tags := do
  let resTags ← dropInactiveProposals k blockTime ((← getStore).queueUpTo .inactive blockTime) []
  tallyActiveProposals k blockTime st ((← getStore).queueUpTo .active blockTime) resTags

/-! ### Genesis -/

/-- `Deposit`. -/
structure Deposit where
  depositor : AccAddress
  proposalID : Nat
  amount : Coins

/-- `DepositWithMetadata`. -/
structure DepositWithMetadata where
  proposalID : Nat
  deposit : Deposit

/-- `VoteWithMetadata`. -/
structure VoteWithMetadata where
  proposalID : Nat
  vote : Vote AccAddress

/-- `GenesisState`. -/
structure GenesisState where
  startingProposalID : Nat
  deposits : List DepositWithMetadata
  votes : List VoteWithMetadata
  proposals : List Proposal
  depositParams : DepositParams
  votingParams : VotingParams
  tallyParams : TallyParams

/-- `validProposalStatus`. -/
def validProposalStatus : ProposalStatus → Bool
  | .depositPeriod | .votingPeriod | .passed | .rejected => true
  | .nil => false

/-- `GetProposalsFiltered`: of the `numLatest` last IDs (all for `0`), the stored proposals that the
voter voted on and the depositor deposited on, where they are given, in the status, where it is valid. -/
def GovStore.getProposalsFiltered (st : GovStore) (voterAddr depositorAddr : AccAddress)
    (status : ProposalStatus) (numLatest : Nat) : List Proposal :=
  match st.nextProposalID with
  | none => []
  | some maxProposalID =>
    let numLatest := if numLatest = 0 then maxProposalID else numLatest
    -- `maxProposalID - numLatest` wraps around below zero, and then the loop never runs
    if maxProposalID < numLatest then []
    else (List.range' (maxProposalID - numLatest) numLatest).filterMap fun proposalID =>
      if !voterAddr.isEmpty && (st.votes.lookup (proposalID, voterAddr)).isNone then none
      else if !depositorAddr.isEmpty && (st.deposits.lookup (proposalID, depositorAddr)).isNone then none
      else match st.proposals.lookup proposalID with
        | none => none
        | some proposal =>
          if validProposalStatus status && proposal.status != status then none else some proposal

/-- `ExportGenesis`: the next ID (zero if it was never set), every proposal with its deposits and
votes, and the parameters. -/
def GovStore.exportGenesis (st : GovStore) (codespace : String) : GenesisState :=
  let startingProposalID :=
    match st.peekCurrentProposalID codespace with
    | .ok proposalID => proposalID
    | .error _ => 0
  let proposals := st.getProposalsFiltered [] [] .nil 0
  { startingProposalID := startingProposalID
    deposits := proposals.flatMap fun proposal => (st.getDeposits proposal.proposalID).map
      fun deposit => ⟨proposal.proposalID, ⟨deposit.1, proposal.proposalID, deposit.2⟩⟩
    votes := proposals.flatMap fun proposal => (st.getVotes proposal.proposalID).map
      fun vote => ⟨proposal.proposalID, vote⟩
    proposals := proposals
    depositParams := st.depositParams
    votingParams := st.votingParams
    tallyParams := st.tallyParams }

/-- The panic of `InitGenesis` on a store whose next ID is set: `panic(err)` prints the error, which
begins with its codespace. -/
def errInitialProposalIDSet : Panic := .other "ERROR:\nCodespace: "

/-- A genesis proposal in the queue of its status, if any, then stored. -/
def importProposal (proposal : Proposal) : GovM β Unit := do
  match proposal.status with
  | .depositPeriod => insertInactiveProposalQueue proposal.depositEndTime proposal.proposalID
  | .votingPeriod => insertActiveProposalQueue proposal.votingEndTime proposal.proposalID
  | _ => pure ()
  setProposal proposal

/-- `InitGenesis`: the next ID, which must not be set yet, the parameters, the deposits and votes
under the IDs they come with, and the proposals, each in the queue of its status. -/
def initGenesis (data : GenesisState) : GovM β Unit := do
  match (← getStore).nextProposalID with
  | some _ => throw errInitialProposalIDSet
  | none => modifyStore fun st => { st with nextProposalID := some data.startingProposalID }
  modifyStore fun st => { st with depositParams := data.depositParams,
                                  votingParams := data.votingParams, tallyParams := data.tallyParams }
  data.deposits.forM fun d => modifyStore (·.setDeposit d.proposalID d.deposit.depositor d.deposit.amount)
  data.votes.forM fun v => modifyStore (·.setVote v.proposalID v.vote.voter v.vote)
  data.proposals.forM importProposal

end CosmosSdk.Gov
