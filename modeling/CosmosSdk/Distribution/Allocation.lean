import CosmosSdk.Staking.Types
import CosmosSdk.Types.DecCoins

/-!
# Fee allocation

`AllocateTokens` and `AllocateTokensToValidator` (`x/distribution/keeper/allocation.go`), which the
distribution `BeginBlocker` runs on the fees collected in the last block, and the parameter checks of
`ValidateGenesis` (`x/distribution/types/genesis.go`).  The proposer gets
`BaseProposerReward + BonusProposerReward · fraction` of the fees, each voter its share of the
`voteMultiplier = 1 - proposerMultiplier - CommunityTax` part, and the community pool the rest.

`ValidateGenesis` bounds `CommunityTax` by one and `BaseProposerReward + BonusProposerReward` by one,
but not the three together.

* `allocateTokens_negative_vote_reward`: from the parameters `CommunityTax = 1`,
  `BaseProposerReward = 1%`, `BonusProposerReward = 4%`, which `ValidateGenesis` accepts, the vote
  reward of the only validator is negative, and `AllocateTokensToValidator` panics splitting it.
-/

namespace CosmosSdk.Distribution

open CosmosSdk.Types Staking StateExcept

/-- The parameters `AllocateTokens` reads. -/
structure Params where
  communityTax : Dec
  baseProposerReward : Dec
  bonusProposerReward : Dec

/-- The part of `GenesisState` that `ValidateGenesis` checks: the community pool of the fee pool and
the parameters. -/
structure GenesisState where
  communityPool : DecCoins
  params : Params

/-- `ValidateGenesis`, with `FeePool.ValidateGenesis` last.  The code adds the two proposer rewards
again for its message; the sum is the one it compared. -/
def validateGenesis (data : GenesisState) : Except Panic (Option String) :=
  let p := data.params
  if p.communityTax.isNegative || p.communityTax.gt Dec.one then
    pure (some ("mint parameter CommunityTax should non-negative and less than one, is " ++
      p.communityTax.toString))
  else if p.baseProposerReward.isNegative then
    pure (some ("mint parameter BaseProposerReward should be positive, is " ++ p.baseProposerReward.toString))
  else if p.bonusProposerReward.isNegative then
    pure (some ("mint parameter BonusProposerReward should be positive, is " ++
      p.bonusProposerReward.toString))
  else do
    let sum ← p.baseProposerReward.add p.bonusProposerReward
    if sum.gt Dec.one then
      pure (some ("mint parameters BaseProposerReward and BonusProposerReward cannot add to be " ++
        "greater than one, adds to " ++ sum.toString))
    else if data.communityPool.isAnyNegative then
      pure (some ("negative CommunityPool in distribution fee pool, is " ++ data.communityPool.toString))
    else pure none

/-- `abci.VoteInfo`: the consensus address of a validator of the last commit and its power. -/
structure VoteInfo (A : Type) where
  address : A
  power : Int

/-- What the allocation reads and writes: the collected fees, the community pool, and per operator the
accumulated commission, the rewards of the current period and the outstanding rewards. -/
structure State (A : Type) where
  collectedFees : Coins
  communityPool : DecCoins
  accumulatedCommission : A → DecCoins
  currentRewards : A → DecCoins
  outstandingRewards : A → DecCoins

variable {A : Type} [DecidableEq A]

/-- The panic of a method called on the `nil` validator `ValidatorByConsAddr` returns for an unknown
address. -/
def nilValidator : Panic := .other "runtime error: invalid memory address or nil pointer dereference"

/-- `AllocateTokensToValidator`: the commission to the operator, the rest to its delegators, and all of
it to the outstanding rewards. -/
def allocateTokensToValidator (val : Validator A) (tokens : DecCoins) (s : State A) :
    Except Panic (State A) := do
  -- split tokens between validator and delegators according to commission
  let commission ← tokens.mulDec val.commission.rate
  let shared ← tokens.sub commission
  let currentCommission ← (s.accumulatedCommission val.operatorAddress).add commission
  let currentRewards ← (s.currentRewards val.operatorAddress).add shared
  let outstanding ← (s.outstandingRewards val.operatorAddress).add tokens
  pure { s with
    accumulatedCommission := Function.update s.accumulatedCommission val.operatorAddress currentCommission
    currentRewards := Function.update s.currentRewards val.operatorAddress currentRewards
    outstandingRewards := Function.update s.outstandingRewards val.operatorAddress outstanding }

/-- One vote of the loop of `AllocateTokens`: the validator's share of the vote reward, capped by what
remains. -/
def allocateVote (validatorByConsAddr : A → Option (Validator A))
    (feesCollected : DecCoins) (voteMultiplier : Dec) (totalPower : Int) (acc : State A × DecCoins)
    (vote : VoteInfo A) : Except Panic (State A × DecCoins) := do
  let (s, remaining) := acc
  match validatorByConsAddr vote.address with
  | none => throw nilValidator
  | some validator =>
    let powerFraction ← (Dec.newDecFromInt vote.power).quoTruncate (Dec.newDecFromInt totalPower)
    let reward ← feesCollected.mulDecTruncate voteMultiplier
    let reward ← reward.mulDecTruncate powerFraction
    let reward ← reward.intersect remaining
    let s ← allocateTokensToValidator validator reward s
    let remaining ← remaining.sub reward
    pure (s, remaining)

/-- `AllocateTokens`. -/
def allocateTokens (params : Params) (validatorByConsAddr : A → Option (Validator A))
    (sumPrecommitPower totalPower : Int) (proposer : A) (votes : List (VoteInfo A)) (s : State A) :
    Except Panic (State A) := do
  let feesCollected ← DecCoins.newDecCoins s.collectedFees
  let feePool := s.communityPool
  -- clear collected fees, which will now be distributed
  let s := { s with collectedFees := [] }
  if totalPower = 0 then
    let pool ← feePool.add feesCollected
    pure { s with communityPool := pool }
  else
    let fractionVotes ← (Dec.newDecFromInt sumPrecommitPower).quo (Dec.newDecFromInt totalPower)
    let bonus ← params.bonusProposerReward.mulTruncate fractionVotes
    let proposerMultiplier ← params.baseProposerReward.add bonus
    let proposerReward ← feesCollected.mulDecTruncate proposerMultiplier
    -- pay proposer; an unknown proposer is only logged
    let (s, remaining) ← match validatorByConsAddr proposer with
      | some proposerValidator => do
        let s ← allocateTokensToValidator proposerValidator proposerReward s
        let remaining ← feesCollected.sub proposerReward
        pure (s, remaining)
      | none => pure (s, feesCollected)
    let gap ← Dec.one.sub proposerMultiplier
    let voteMultiplier ← gap.sub params.communityTax
    let (s, remaining) ← votes.foldlM
      (allocateVote validatorByConsAddr feesCollected voteMultiplier totalPower) (s, remaining)
    -- allocate community funding
    let pool ← feePool.add remaining
    pure { s with communityPool := pool }

/-! ### What `ValidateGenesis` accepts -/

/-- `ValidateGenesis` accepts nonnegative proposer rewards whose sum is at most one, a community tax
in `[0, 1]` and a community pool with no negative coin, whatever the three add up to. -/
theorem validateGenesis_of_bounds {data : GenesisState} (htax : 0 ≤ data.params.communityTax.raw)
    (htax' : data.params.communityTax.raw ≤ precisionReuse) (hbase : 0 ≤ data.params.baseProposerReward.raw)
    (hbonus : 0 ≤ data.params.bonusProposerReward.raw)
    (hsum : data.params.baseProposerReward.raw + data.params.bonusProposerReward.raw ≤ precisionReuse)
    (hpool : data.communityPool.isAnyNegative = false) : validateGenesis data = .ok none := by
  have hbound : precisionReuse < 2 ^ (maxBitLen + decimalPrecisionBits) :=
    calc precisionReuse < 2 ^ 60 := by decide
      _ ≤ 2 ^ (maxBitLen + decimalPrecisionBits) := Nat.pow_le_pow_right (by decide) (by decide)
  have hfit : (data.params.baseProposerReward.raw + data.params.bonusProposerReward.raw).natAbs <
      2 ^ (maxBitLen + decimalPrecisionBits) := by
    omega
  have hcheckTax : (data.params.communityTax.isNegative || data.params.communityTax.gt Dec.one) = false := by
    have hneg : data.params.communityTax.isNegative = false := decide_eq_false (not_lt.2 htax)
    have hgt : data.params.communityTax.gt Dec.one = false := decide_eq_false (not_lt.2 htax')
    rw [hneg, hgt]
    rfl
  have hcheckBase : data.params.baseProposerReward.isNegative = false := decide_eq_false (not_lt.2 hbase)
  have hcheckBonus : data.params.bonusProposerReward.isNegative = false := decide_eq_false (not_lt.2 hbonus)
  have hcheckSum : (Dec.gt ⟨data.params.baseProposerReward.raw + data.params.bonusProposerReward.raw⟩ Dec.one) =
      false := decide_eq_false (not_lt.2 hsum)
  unfold validateGenesis
  dsimp only
  rw [if_neg (by rw [hcheckTax]; decide), if_neg (by rw [hcheckBase]; decide),
    if_neg (by rw [hcheckBonus]; decide), Dec.add_of_natAbs_lt hfit, except_ok_bind,
    if_neg (by rw [hcheckSum]; decide), if_neg (by rw [hpool]; decide)]
  rfl

/-! ### A negative vote reward -/

/-- A community tax of one with the default proposer rewards: `ValidateGenesis` accepts it, and the
vote multiplier `1 - 5% - 1` is negative. -/
def taxOfOne : Params := ⟨Dec.one, Dec.newDecWithPrec 1 2, Dec.newDecWithPrec 4 2⟩

/-- Under `taxOfOne`, with 100stake collected, an unknown proposer and one validator of commission rate
zero holding all the power: its vote reward is -5stake, and splitting it panics. -/
theorem allocateTokens_negative_vote_reward (val : Validator A) (hrate : val.commission.rate = Dec.zero)
    (proposer : A) (hproposer : proposer ≠ val.consAddress) (s : State A)
    (hfees : s.collectedFees = [⟨"stake", 100⟩]) :
    validateGenesis ⟨[], taxOfOne⟩ = .ok none ∧
      allocateTokens taxOfOne (fun a => if a = val.consAddress then some val else none) 10 10 proposer
        [⟨val.consAddress, 10⟩] s = .error (.other "negative coin amount") := by
  refine ⟨validateGenesis_of_bounds (by decide) (by decide) (by decide) (by decide) (by decide) rfl, ?_⟩
  -- the amounts, in units of `10⁻¹⁸`: the fees, the multipliers and the two rewards
  have hfeesDec : DecCoins.newDecCoins [⟨"stake", 100⟩] = .ok [⟨"stake", Dec.newDecFromInt 100⟩] := rfl
  have hfraction : (Dec.newDecFromInt 10).quo (Dec.newDecFromInt 10) = .ok Dec.one := rfl
  have hbonus : taxOfOne.bonusProposerReward.mulTruncate Dec.one = .ok (Dec.newDecWithPrec 4 2) := rfl
  have hmultiplier : taxOfOne.baseProposerReward.add (Dec.newDecWithPrec 4 2) = .ok (Dec.newDecWithPrec 5 2) :=
    rfl
  have hproposerReward : DecCoins.mulDecTruncate [⟨"stake", Dec.newDecFromInt 100⟩] (Dec.newDecWithPrec 5 2) =
      .ok [⟨"stake", Dec.newDecFromInt 5⟩] := rfl
  have hgap : Dec.one.sub (Dec.newDecWithPrec 5 2) = .ok (Dec.newDecWithPrec 95 2) := rfl
  have hvote : (Dec.newDecWithPrec 95 2).sub taxOfOne.communityTax = .ok (Dec.newDecWithPrec (-5) 2) := rfl
  have hpowerFraction : (Dec.newDecFromInt 10).quoTruncate (Dec.newDecFromInt 10) = .ok Dec.one := rfl
  have hreward : DecCoins.mulDecTruncate [⟨"stake", Dec.newDecFromInt 100⟩] (Dec.newDecWithPrec (-5) 2) =
      .ok [⟨"stake", Dec.newDecFromInt (-5)⟩] := rfl
  have hshare : DecCoins.mulDecTruncate [⟨"stake", Dec.newDecFromInt (-5)⟩] Dec.one =
      .ok [⟨"stake", Dec.newDecFromInt (-5)⟩] := rfl
  -- the reward is below what remains, so `Intersect` keeps it
  have hremaining : DecCoins.amountOf [⟨"stake", Dec.newDecFromInt 100⟩] "stake" = .ok (Dec.newDecFromInt 100) := by
    rw [DecCoins.amountOf_eq_ok (by exact List.pairwise_singleton _ _) (by decide)]
    simp [Coins.amount_cons, Coins.amount_nil]
  have hintersect : DecCoins.intersect [⟨"stake", Dec.newDecFromInt (-5)⟩] [⟨"stake", Dec.newDecFromInt 100⟩] =
      .ok [⟨"stake", Dec.newDecFromInt (-5)⟩] := by
    simp only [DecCoins.intersect, List.mapM_cons, List.mapM_nil, hremaining, except_ok_bind]
    rfl
  -- with a commission rate of zero, the delegators' share is the whole negative reward
  have hcommission : DecCoins.mulDec [⟨"stake", Dec.newDecFromInt (-5)⟩] val.commission.rate =
      .ok [⟨"stake", Dec.zero⟩] := by
    rw [hrate]
    rfl
  have hshared : DecCoins.sub [⟨"stake", Dec.newDecFromInt (-5)⟩] [⟨"stake", Dec.zero⟩] =
      .error (.other "negative coin amount") := by
    rw [DecCoins.sub_same (by decide), if_pos (by decide)]
  have hsplit : allocateTokensToValidator val [⟨"stake", Dec.newDecFromInt (-5)⟩]
      { s with collectedFees := [] } = .error (.other "negative coin amount") := by
    rw [allocateTokensToValidator, hcommission, except_ok_bind, hshared]
    rfl
  unfold allocateTokens
  rw [hfees, hfeesDec, except_ok_bind]
  dsimp only
  rw [if_neg (by decide), hfraction, except_ok_bind, hbonus, except_ok_bind, hmultiplier, except_ok_bind,
    hproposerReward, except_ok_bind, if_neg hproposer]
  dsimp only
  simp only [except_pure, except_ok_bind, hgap, hvote, List.foldlM_cons, allocateVote, if_true,
    hpowerFraction, hreward, hshare, hintersect, hsplit]
  rfl

theorem allocateTokens_negative_vote_reward_one :
    (Validator.new 1 2 ⟨"", "", "", ""⟩ : Validator Nat).commission.rate = Dec.zero ∧ (0 : Nat) ≠ 2 ∧
      validateGenesis ⟨[], taxOfOne⟩ = .ok none ∧
      allocateTokens taxOfOne (fun a => if a = 2 then some (Validator.new 1 2 ⟨"", "", "", ""⟩) else none)
        10 10 0 [⟨2, 10⟩] ⟨[⟨"stake", 100⟩], [], fun _ => [], fun _ => [], fun _ => []⟩ =
        .error (.other "negative coin amount") :=
  ⟨rfl, by decide, allocateTokens_negative_vote_reward (Validator.new 1 2 ⟨"", "", "", ""⟩) rfl 0 (by decide)
    ⟨[⟨"stake", 100⟩], [], fun _ => [], fun _ => [], fun _ => []⟩ rfl⟩

end CosmosSdk.Distribution
