import CosmosSdk.Staking.Keeper
import CosmosSdk.Lib.FinmapFold

/-!
# Tallying a proposal

`tally` of `x/gov/tally.go`, which the end blocker runs on a proposal whose voting period is over.
The bonded validators are read by power, each with its bonded tokens, its shares and no vote yet.
Then the votes are walked in voter order.  A voter that operates one of those validators only sets
that validator's vote.  Any other voter's delegations to them count for its option at the share's
worth (`shares / DelegatorShares · BondedTokens`), and their shares are deducted from the validator.
Last, each validator that voted counts the worth of its shares left after the deductions.

The governance specification (`docs/spec/governance/02_state.md`) counts the delegations of every
voter and records the vote of a voter that is a validator besides (`tallyVotesReference`).  The two
agree whenever no voter operates a bonded validator (`countVotes_eq_reference`).  They differ when
one does: its delegations to other validators are neither counted for its option nor deducted from
them, so they vote with those validators (`countVotes_validator_delegation`).

The walk of the votes is `tallyVotes` over what the stores give, so that the counting can be run on
chosen lists; `tally` reads those lists from the staking and governance stores.
-/

namespace CosmosSdk.Gov

open Staking

/-- `VoteOption`. -/
inductive VoteOption where
  | empty | yes | abstain | no | noWithVeto
  deriving DecidableEq

/-- `validatorGovInfo`. -/
structure ValidatorGovInfo (A : Type) where
  address : A
  bondedTokens : Int
  delegatorShares : Dec
  delegatorDeductions : Dec
  vote : VoteOption

/-- `TallyResult`. -/
structure TallyResult where
  yes : Int
  abstain : Int
  no : Int
  noWithVeto : Int
  deriving DecidableEq

/-- `TallyParams`. -/
structure TallyParams where
  quorum : Dec
  threshold : Dec
  veto : Dec

/-- `Vote`, the record `AddVote` stores. -/
structure Vote (A : Type) where
  voter : A
  proposalID : Nat
  option : VoteOption
  deriving DecidableEq

/-- The governance store as `tally` reads it: the votes under `KeyVote(proposalID, voter)`, and the
tally parameters. -/
structure Store (A : Type) where
  votes : MemDB (Nat × A) (Vote A)
  tallyParams : TallyParams

/-- What `tally` carries through its loops: the bonded validators' infos, the power counted for each
option (`results`) and in all. -/
structure TallyState (A : Type) where
  currValidators : MemDB A (ValidatorGovInfo A)
  results : VoteOption → Dec
  totalVotingPower : Dec

variable {A : Type} [DecidableEq A]

/-! ### Counting -/

/-- `results[option] = results[option].Add(votingPower)`. -/
def addResult (results : VoteOption → Dec) (option : VoteOption) (votingPower : Dec) :
    Except Panic (VoteOption → Dec) := do
  let sum ← (results option).add votingPower
  pure (Function.update results option sum)

/-- Count `votingPower` for `option`. -/
def TallyState.count (t : TallyState A) (option : VoteOption) (votingPower : Dec) :
    Except Panic (TallyState A) := do
  let results ← addResult t.results option votingPower
  let totalVotingPower ← t.totalVotingPower.add votingPower
  pure { t with results := results, totalVotingPower := totalVotingPower }

/-- The infos of the bonded validators, with no vote and no deduction, and nothing counted. -/
def initTallyState (validators : List (Validator A)) : TallyState A where
  currValidators := validators.foldl (fun m validator => m.insert validator.operatorAddress
    ⟨validator.operatorAddress, validator.bondedTokens, validator.delegatorShares, Dec.zero, .empty⟩) ∅
  results := fun _ => Dec.zero
  totalVotingPower := Dec.zero

/-- The walk of a voter's delegations: each one to a bonded validator counts its worth for the
voter's option and is deducted from the validator. -/
def tallyDelegations (option : VoteOption) : TallyState A → List (Delegation A) →
    Except Panic (TallyState A)
  | t, [] => pure t
  | t, delegation :: delegations => do
    match t.currValidators.lookup delegation.validatorAddress with
    | none => tallyDelegations option t delegations
    | some val =>
      let deductions ← val.delegatorDeductions.add delegation.shares
      let val := { val with delegatorDeductions := deductions }
      let t := { t with currValidators := t.currValidators.insert delegation.validatorAddress val }
      let delegatorShare ← delegation.shares.quo val.delegatorShares
      let votingPower ← delegatorShare.mulInt val.bondedTokens
      let t ← t.count option votingPower
      tallyDelegations option t delegations

/-- Record the vote of a voter that operates a bonded validator. -/
def TallyState.setVote (t : TallyState A) (voter : A) (val : ValidatorGovInfo A)
    (option : VoteOption) : TallyState A :=
  { t with currValidators := t.currValidators.insert voter { val with vote := option } }

/-- The walk of the votes, in voter order: a voter operating a bonded validator sets its vote, any
other has its delegations counted. -/
def tallyVotes (delegationsOf : A → List (Delegation A)) : TallyState A → List (A × VoteOption) →
    Except Panic (TallyState A)
  | t, [] => pure t
  | t, (voter, option) :: votes => do
    match t.currValidators.lookup voter with
    | some val => tallyVotes delegationsOf (t.setVote voter val option) votes
    | none =>
      let t ← tallyDelegations option t (delegationsOf voter)
      tallyVotes delegationsOf t votes

/-- The last loop: each bonded validator that voted counts the worth of its shares left after the
deductions.  The code walks the Go map `currValidators` in no fixed order; the model walks its keys
in power order.  The sums are exact, so the order matters only to where an overflow panics. -/
def tallyValidators : TallyState A → List A → Except Panic (TallyState A)
  | t, [] => pure t
  | t, addr :: addrs => do
    match t.currValidators.lookup addr with
    | none => tallyValidators t addrs
    | some val =>
      if val.vote = .empty then tallyValidators t addrs
      else
        let sharesAfterDeductions ← val.delegatorShares.sub val.delegatorDeductions
        let fractionAfterDeductions ← sharesAfterDeductions.quo val.delegatorShares
        let votingPower ← fractionAfterDeductions.mulInt val.bondedTokens
        let t ← t.count val.vote votingPower
        tallyValidators t addrs

/-- The counting of `tally`, from the bonded validators by power, each voter's delegations and the
votes. -/
def countVotes (validators : List (Validator A)) (delegationsOf : A → List (Delegation A))
    (votes : List (A × VoteOption)) : Except Panic (TallyState A) := do
  let t ← tallyVotes delegationsOf (initTallyState validators) votes
  tallyValidators t (validators.map (·.operatorAddress)).dedup

/-- `NewTallyResultFromMap`. -/
def newTallyResultFromMap (results : VoteOption → Dec) : Except Panic TallyResult := do
  pure ⟨← (results .yes).truncateInt, ← (results .abstain).truncateInt, ← (results .no).truncateInt,
    ← (results .noWithVeto).truncateInt⟩

/-- The verdict of `tally`: quorum, then a non-abstaining vote, then the veto share, then the yes
share against the threshold. -/
def passes (tallyParams : TallyParams) (totalBondedTokens : Int) (results : VoteOption → Dec)
    (totalVotingPower : Dec) : Except Panic Bool := do
  if totalBondedTokens = 0 then return false
  let percentVoting ← totalVotingPower.quo (Dec.newDecFromInt totalBondedTokens)
  if percentVoting.lt tallyParams.quorum then return false
  if (← totalVotingPower.sub (results .abstain)) = Dec.zero then return false
  if (← (results .noWithVeto).quo totalVotingPower).gt tallyParams.veto then return false
  let nonAbstaining ← totalVotingPower.sub (results .abstain)
  if (← (results .yes).quo nonAbstaining).gt tallyParams.threshold then return true
  return false

/-! ### The specification's walk -/

/-- The walk of the votes in the governance specification: every voter's delegations are counted,
and a voter operating a bonded validator sets that validator's vote besides. -/
def tallyVotesReference (delegationsOf : A → List (Delegation A)) :
    TallyState A → List (A × VoteOption) → Except Panic (TallyState A)
  | t, [] => pure t
  | t, (voter, option) :: votes => do
    let t ← tallyDelegations option t (delegationsOf voter)
    let t := match t.currValidators.lookup voter with
      | some val => t.setVote voter val option
      | none => t
    tallyVotesReference delegationsOf t votes

/-- The counting of the specification. -/
def countVotesReference (validators : List (Validator A)) (delegationsOf : A → List (Delegation A))
    (votes : List (A × VoteOption)) : Except Panic (TallyState A) := do
  let t ← tallyVotesReference delegationsOf (initTallyState validators) votes
  tallyValidators t (validators.map (·.operatorAddress)).dedup

/-! ### The code against the specification -/

section Reference

open StateExcept

omit [DecidableEq A] in
theorem TallyState.count_currValidators {t t' : TallyState A} {option : VoteOption}
    {votingPower : Dec} (h : t.count option votingPower = .ok t') :
    t'.currValidators = t.currValidators := by
  obtain ⟨results, -, h⟩ := except_bind_eq_ok.1 h
  obtain ⟨total, -, h⟩ := except_bind_eq_ok.1 h
  cases h
  rfl

/-- The walk of a voter's delegations changes the infos of bonded validators only. -/
theorem tallyDelegations_lookup_none {option : VoteOption} {a : A} :
    ∀ {delegations : List (Delegation A)} {t t' : TallyState A}, t.currValidators.lookup a = none →
      tallyDelegations option t delegations = .ok t' → t'.currValidators.lookup a = none
  | [], _, _, ha, h => by
    cases h
    exact ha
  | delegation :: delegations, t, t', ha, h => by
    unfold tallyDelegations at h
    split at h
    · exact tallyDelegations_lookup_none ha h
    · rename_i val hval
      have hne : delegation.validatorAddress ≠ a := fun heq => by
        rw [heq, ha] at hval
        cases hval
      obtain ⟨deductions, -, h⟩ := except_bind_eq_ok.1 h
      obtain ⟨delegatorShare, -, h⟩ := except_bind_eq_ok.1 h
      obtain ⟨votingPower, -, h⟩ := except_bind_eq_ok.1 h
      obtain ⟨t₁, hcount, h⟩ := except_bind_eq_ok.1 h
      refine tallyDelegations_lookup_none ?_ h
      rw [TallyState.count_currValidators hcount]
      exact (Finmap.lookup_insert_of_ne _ hne.symm).trans ha

/-- While no voter operates a bonded validator, the code's walk of the votes is the
specification's. -/
theorem tallyVotes_eq_reference (delegationsOf : A → List (Delegation A)) :
    ∀ (votes : List (A × VoteOption)) (t : TallyState A),
      (∀ vote ∈ votes, t.currValidators.lookup vote.1 = none) →
        tallyVotes delegationsOf t votes = tallyVotesReference delegationsOf t votes
  | [], _, _ => rfl
  | (voter, option) :: votes, t, h => by
    have hvoter : t.currValidators.lookup voter = none := h (voter, option) List.mem_cons_self
    simp only [tallyVotes, tallyVotesReference, hvoter]
    cases hrun : tallyDelegations option t (delegationsOf voter) with
    | error e => rfl
    | ok t' =>
      -- the voter is no bonded validator after its delegations either
      have hvoter' := tallyDelegations_lookup_none hvoter hrun
      simp only [bind, Except.bind, hvoter']
      exact tallyVotes_eq_reference delegationsOf votes t' fun vote hvote =>
        tallyDelegations_lookup_none (h vote (List.mem_cons_of_mem _ hvote)) hrun

/-- Where no voter operates a bonded validator, `tally` counts as the specification does. -/
theorem countVotes_eq_reference (validators : List (Validator A))
    (delegationsOf : A → List (Delegation A)) (votes : List (A × VoteOption))
    (h : ∀ vote ∈ votes, vote.1 ∉ validators.map (·.operatorAddress)) :
    countVotes validators delegationsOf votes = countVotesReference validators delegationsOf votes := by
  have hnone : ∀ vote ∈ votes, (initTallyState validators).currValidators.lookup vote.1 = none := by
    intro vote hvote
    apply Finmap.lookup_foldl_insert_of_forall_ne
    intro validator hvalidator heq
    exact h vote hvote (heq ▸ List.mem_map_of_mem hvalidator)
  simp only [countVotes, countVotesReference,
    tallyVotes_eq_reference delegationsOf votes (initTallyState validators) hnone]

theorem countVotes_eq_reference_delegator :
    (∀ vote ∈ [((3 : Nat), VoteOption.yes)], vote.1 ∉
        [Validator.new 1 1 ⟨"", "", "", ""⟩, Validator.new 2 2 ⟨"", "", "", ""⟩].map
          (·.operatorAddress)) ∧
      countVotes [Validator.new 1 1 ⟨"", "", "", ""⟩, Validator.new 2 2 ⟨"", "", "", ""⟩]
          (fun voter => [⟨voter, 1, ⟨10 ^ 18⟩⟩]) [(3, .yes)] =
        countVotesReference [Validator.new 1 1 ⟨"", "", "", ""⟩, Validator.new 2 2 ⟨"", "", "", ""⟩]
          (fun voter => [⟨voter, 1, ⟨10 ^ 18⟩⟩]) [(3, .yes)] :=
  ⟨by decide, countVotes_eq_reference _ _ _ (by decide)⟩

/-- Two bonded validators of 100 tokens and 100 shares, operated by `1` and `2`, where `1` also
holds 50 of the shares of `2`.  With `1` voting yes and `2` voting no, the code counts those 50
shares for no, with the validator `2`, and the specification counts them for yes. -/
theorem countVotes_validator_delegation :
    ((countVotes
        [{ Validator.new 1 1 ⟨"", "", "", ""⟩ with
            status := .bonded, tokens := 100, delegatorShares := ⟨100 * 10 ^ 18⟩ },
          { Validator.new 2 2 ⟨"", "", "", ""⟩ with
            status := .bonded, tokens := 100, delegatorShares := ⟨100 * 10 ^ 18⟩ }]
        (fun voter => if voter = 1 then [⟨1, 1, ⟨100 * 10 ^ 18⟩⟩, ⟨1, 2, ⟨50 * 10 ^ 18⟩⟩]
          else if voter = 2 then [⟨2, 2, ⟨50 * 10 ^ 18⟩⟩] else [])
        [(1, .yes), (2, .no)]).map fun t => (t.results .yes, t.results .no)) =
      .ok (⟨100 * 10 ^ 18⟩, ⟨100 * 10 ^ 18⟩) ∧
    ((countVotesReference
        [{ Validator.new 1 1 ⟨"", "", "", ""⟩ with
            status := .bonded, tokens := 100, delegatorShares := ⟨100 * 10 ^ 18⟩ },
          { Validator.new 2 2 ⟨"", "", "", ""⟩ with
            status := .bonded, tokens := 100, delegatorShares := ⟨100 * 10 ^ 18⟩ }]
        (fun voter => if voter = 1 then [⟨1, 1, ⟨100 * 10 ^ 18⟩⟩, ⟨1, 2, ⟨50 * 10 ^ 18⟩⟩]
          else if voter = 2 then [⟨2, 2, ⟨50 * 10 ^ 18⟩⟩] else [])
        [(1, .yes), (2, .no)]).map fun t => (t.results .yes, t.results .no)) =
      .ok (⟨150 * 10 ^ 18⟩, ⟨50 * 10 ^ 18⟩) :=
  ⟨rfl, rfl⟩

end Reference

/-! ### The stores -/

variable [LinearOrder A]

/-- `IterateBondedValidatorsByPower`: the power index from the highest rank, the bonded validators
only, at most `maxValidators` of them. -/
def bondedValidatorsByPower (st : Staking.Store A) : Nat → List A → Except Panic (List (Validator A))
  | 0, _ => pure []
  | _, [] => pure []
  | n + 1, addr :: addrs =>
    match st.validators.lookup addr with
    | none => throw (.other "validator record not found for address: ")
    | some validator =>
      if validator.status = .bonded then
        (validator :: ·) <$> bondedValidatorsByPower st n addrs
      else bondedValidatorsByPower st (n + 1) addrs

/-- `IterateDelegations`: the voter's delegations, by validator address. -/
def delegationsOf (st : Staking.Store A) (delAddr : A) : List (Delegation A) :=
  ((st.delegations.keys.filter (·.1 = delAddr)).image Prod.snd).sort.filterMap fun valAddr =>
    (st.delegations.lookup (delAddr, valAddr)).map (⟨delAddr, valAddr, ·⟩)

/-- `GetVotes`: the vote records under the proposal's ID, by voter address. -/
def getVotes (gov : Store A) (proposalID : Nat) : List (Vote A) :=
  ((gov.votes.keys.filter (·.1 = proposalID)).image Prod.snd).sort.filterMap fun voter =>
    gov.votes.lookup (proposalID, voter)

/-- `tally`: whether the proposal passes, and its results.  Each vote is counted for the voter and
option its record holds, and deleted under `KeyVote` of the record's own proposal ID and voter. -/
def tally (st : Staking.Store A) (gov : Store A) (proposalID : Nat) :
    Except Panic ((Bool × TallyResult) × Store A) := do
  let powerIndex := (st.validatorsByPower.listing none none false).map (·.2)
  let validators ← bondedValidatorsByPower st st.params.maxValidators powerIndex
  let votes := getVotes gov proposalID
  let t ← countVotes validators (delegationsOf st) (votes.map fun vote => (vote.voter, vote.option))
  let gov := { gov with
    votes := votes.foldl (fun m vote => m.erase (vote.proposalID, vote.voter)) gov.votes }
  let tallyResults ← newTallyResultFromMap t.results
  let verdict ← passes gov.tallyParams st.pool.bondedTokens t.results t.totalVotingPower
  pure ((verdict, tallyResults), gov)

end CosmosSdk.Gov
