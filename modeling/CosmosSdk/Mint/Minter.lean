import CosmosSdk.Types.Coins

/-!
# Minting

The minter and the parameters of `x/mint` (`minter.go`, `params.go`, `genesis.go`) and what
`BeginBlocker` (`abci_app.go`) computes each block: the next inflation rate, clamped to the bounds of
the parameters, the annual provisions at that rate, and the coin minted for the block.  The stores
are left out: `beginBlocker` returns the minter the block writes and the coin it adds to the
collected fees and to the supply.

* `beginBlocker_halts_on_zero_divisor`: `ValidateGenesis` accepts a `GoalBonded` of zero and a
  `BlocksPerYear` of zero, and from such parameters `BeginBlocker` panics, the first with a division
  by zero.
* `nextInflationRate_bounds`: the inflation rate `NextInflationRate` returns under parameters that
  `validateParams` accepts lies between `InflationMin` and `InflationMax`.
-/

namespace CosmosSdk.Mint

open CosmosSdk.Types StateExcept

/-- `Minter`. -/
structure Minter where
  inflation : Dec
  annualProvisions : Dec

/-- `Params`. -/
structure Params where
  mintDenom : String
  inflationRateChange : Dec
  inflationMax : Dec
  inflationMin : Dec
  goalBonded : Dec
  blocksPerYear : UInt64

/-- `GenesisState`. -/
structure GenesisState where
  minter : Minter
  params : Params

/-- `DefaultInitialMinter`: an inflation of 13% and no provisions yet. -/
def defaultInitialMinter : Minter := ⟨Dec.newDecWithPrec 13 2, Dec.newDecFromInt 0⟩

/-- `DefaultParams`, with `sdk.DefaultBondDenom` and blocks of five seconds. -/
def defaultParams : Params :=
  ⟨"stake", Dec.newDecWithPrec 13 2, Dec.newDecWithPrec 20 2, Dec.newDecWithPrec 7 2,
    Dec.newDecWithPrec 67 2, 60 * 60 * 8766 / 5⟩

/-- `validateMinter`. -/
def validateMinter (minter : Minter) : Option String :=
  if minter.inflation.lt Dec.zero then
    some ("mint parameter Inflation should be positive, is " ++ minter.inflation.toString)
  else none

/-- `validateParams`. -/
def validateParams (params : Params) : Option String :=
  if params.goalBonded.lt Dec.zero then
    some ("mint parameter GoalBonded should be positive, is " ++ params.goalBonded.toString ++ " ")
  else if params.goalBonded.gt Dec.one then
    some ("mint parameter GoalBonded must be <= 1, is " ++ params.goalBonded.toString)
  else if params.inflationMax.lt params.inflationMin then
    some "mint parameter Max inflation must be greater than or equal to min inflation"
  else if params.mintDenom = "" then some "mint parameter MintDenom can't be an empty string"
  else none

/-- `ValidateGenesis`. -/
def validateGenesis (data : GenesisState) : Option String :=
  match validateParams data.params with
  | some err => some err
  | none => validateMinter data.minter

/-- `int64(params.BlocksPerYear)`: the bits of the `uint64` read as an `int64`. -/
def blocksPerYearInt64 (params : Params) : Int := params.blocksPerYear.toInt64.toInt

namespace Minter

/-- `Minter.NextInflationRate`. -/
def nextInflationRate (m : Minter) (params : Params) (bondedRatio : Dec) : Except Panic Dec := do
  -- (1 - bondedRatio/GoalBonded) * InflationRateChange
  let ratio ← bondedRatio.quo params.goalBonded
  let gap ← Dec.one.sub ratio
  let inflationRateChangePerYear ← gap.mul params.inflationRateChange
  let inflationRateChange ←
    inflationRateChangePerYear.quo (Dec.newDecWithPrec (blocksPerYearInt64 params) 0)
  -- increase the new annual inflation for this next cycle
  let inflation ← m.inflation.add inflationRateChange
  let inflation := if inflation.gt params.inflationMax then params.inflationMax else inflation
  let inflation := if inflation.lt params.inflationMin then params.inflationMin else inflation
  pure inflation

/-- `Minter.NextAnnualProvisions`. -/
def nextAnnualProvisions (m : Minter) (totalSupply : Int) : Except Panic Dec :=
  m.inflation.mulInt totalSupply

/-- `Minter.BlockProvision`: `NewCoin` of the truncated share of the block. -/
def blockProvision (m : Minter) (params : Params) : Except Panic Coin := do
  let provisionAmt ← m.annualProvisions.quoInt (blocksPerYearInt64 params)
  let amount ← provisionAmt.truncateInt
  Coin.newCoin params.mintDenom amount

end Minter

/-- `BeginBlocker`, from the stored minter and parameters and the total and bonded ratio of the
staking keeper: the minter it stores and the coin it mints. -/
def beginBlocker (minter : Minter) (params : Params) (totalSupply : Int) (bondedRatio : Dec) :
    Except Panic (Minter × Coin) := do
  let inflation ← minter.nextInflationRate params bondedRatio
  let minter := { minter with inflation }
  let annualProvisions ← minter.nextAnnualProvisions totalSupply
  let minter := { minter with annualProvisions }
  let mintedCoin ← minter.blockProvision params
  pure (minter, mintedCoin)

/-! ### What validation accepts -/

/-- What `validateParams` checks: `GoalBonded` in `[0, 1]`, the bounds in order, a denomination. -/
theorem validateParams_eq_none_iff {params : Params} :
    validateParams params = none ↔ 0 ≤ params.goalBonded.raw ∧ params.goalBonded.raw ≤ precisionReuse ∧
      params.inflationMin.raw ≤ params.inflationMax.raw ∧ params.mintDenom ≠ "" := by
  unfold validateParams
  by_cases hneg : params.goalBonded.lt Dec.zero = true
  · rw [if_pos hneg]
    exact iff_of_false (Option.some_ne_none _) fun h => absurd h.1 (not_le.2 (Dec.lt_eq_true.1 hneg))
  rw [if_neg hneg]
  by_cases hgt : params.goalBonded.gt Dec.one = true
  · rw [if_pos hgt]
    exact iff_of_false (Option.some_ne_none _) fun h => absurd h.2.1 (not_le.2 (Dec.gt_eq_true.1 hgt))
  rw [if_neg hgt]
  by_cases hmax : params.inflationMax.lt params.inflationMin = true
  · rw [if_pos hmax]
    exact iff_of_false (Option.some_ne_none _) fun h => absurd h.2.2.1 (not_le.2 (Dec.lt_eq_true.1 hmax))
  rw [if_neg hmax]
  by_cases hdenom : params.mintDenom = ""
  · rw [if_pos hdenom]
    exact iff_of_false (Option.some_ne_none _) fun h => h.2.2.2 hdenom
  rw [if_neg hdenom]
  exact iff_of_true rfl ⟨not_lt.1 (mt Dec.lt_eq_true.2 hneg), not_lt.1 (mt Dec.gt_eq_true.2 hgt),
    not_lt.1 (mt Dec.lt_eq_true.2 hmax), hdenom⟩

theorem validateGenesis_eq_none_iff {data : GenesisState} :
    validateGenesis data = none ↔ validateParams data.params = none ∧ 0 ≤ data.minter.inflation.raw := by
  unfold validateGenesis validateMinter
  split
  · rename_i err herr
    exact iff_of_false (Option.some_ne_none _) fun h => absurd (herr.symm.trans h.1) (Option.some_ne_none _)
  · rename_i herr
    by_cases hneg : data.minter.inflation.lt Dec.zero = true
    · rw [if_pos hneg]
      exact iff_of_false (Option.some_ne_none _) fun h => absurd h.2 (not_le.2 (Dec.lt_eq_true.1 hneg))
    · rw [if_neg hneg]
      exact iff_of_true rfl ⟨herr, not_lt.1 (mt Dec.lt_eq_true.2 hneg)⟩

/-- The default genesis passes its own validation. -/
theorem validateGenesis_default : validateGenesis ⟨defaultInitialMinter, defaultParams⟩ = none := by
  rw [validateGenesis_eq_none_iff, validateParams_eq_none_iff]
  decide

/-! ### Division by zero -/

/-- Dividing by a `BlocksPerYear` of zero panics, whatever came before. -/
theorem nextInflationRate_blocksPerYear_zero (m : Minter) (params : Params) (bondedRatio : Dec)
    (hblocks : params.blocksPerYear = 0) : ∃ p, m.nextInflationRate params bondedRatio = .error p := by
  have hzero : blocksPerYearInt64 params = 0 := by
    rw [blocksPerYearInt64, hblocks]
    decide
  unfold Minter.nextInflationRate
  -- each step before the division either panics or passes its value on
  cases bondedRatio.quo params.goalBonded with
  | error p => exact ⟨p, rfl⟩
  | ok ratio =>
    rw [except_ok_bind]
    cases Dec.one.sub ratio with
    | error p => exact ⟨p, rfl⟩
    | ok gap =>
      rw [except_ok_bind]
      cases gap.mul params.inflationRateChange with
      | error p => exact ⟨p, rfl⟩
      | ok change =>
        rw [except_ok_bind]
        refine ⟨.other "division by zero", except_bind_of_eq_error ?_⟩
        rw [hzero, Dec.quo, Dec.quoRaw, if_pos (by rfl)]
        rfl

/-- `ValidateGenesis` accepts a `GoalBonded` of zero, with which `BeginBlocker` panics dividing by
it; and it accepts a `BlocksPerYear` of zero, with which `BeginBlocker` panics too. -/
theorem beginBlocker_halts_on_zero_divisor :
    (∀ (minter : Minter) (params : Params) (totalSupply : Int) (bondedRatio : Dec),
      0 ≤ minter.inflation.raw → params.inflationMin.raw ≤ params.inflationMax.raw →
      params.mintDenom ≠ "" → params.goalBonded = Dec.zero →
      validateGenesis ⟨minter, params⟩ = none ∧
        beginBlocker minter params totalSupply bondedRatio = .error (.other "division by zero")) ∧
    (∀ (minter : Minter) (params : Params) (totalSupply : Int) (bondedRatio : Dec),
      validateGenesis ⟨minter, params⟩ = none → params.blocksPerYear = 0 →
      ∃ p, beginBlocker minter params totalSupply bondedRatio = .error p) := by
  constructor
  · intro minter params totalSupply bondedRatio hinfl hmax hdenom hgoal
    have hparams : validateParams params = none := by
      rw [validateParams_eq_none_iff, hgoal]
      exact ⟨le_refl 0, by decide, hmax, hdenom⟩
    refine ⟨validateGenesis_eq_none_iff.2 ⟨hparams, hinfl⟩, ?_⟩
    have hquo : bondedRatio.quo params.goalBonded = .error (.other "division by zero") := by
      rw [hgoal, Dec.quo, Dec.quoRaw, if_pos (show Dec.zero.raw = 0 from rfl)]
      rfl
    simp only [beginBlocker, Minter.nextInflationRate, hquo]
    rfl
  · intro minter params totalSupply bondedRatio _ hblocks
    obtain ⟨p, hp⟩ := nextInflationRate_blocksPerYear_zero minter params bondedRatio hblocks
    exact ⟨p, except_bind_of_eq_error hp⟩

theorem beginBlocker_halts_on_zero_divisor_default :
    validateGenesis ⟨defaultInitialMinter, { defaultParams with goalBonded := Dec.zero }⟩ = none ∧
      beginBlocker defaultInitialMinter { defaultParams with goalBonded := Dec.zero } 1000000
        (Dec.newDecWithPrec 5 1) = .error (.other "division by zero") :=
  beginBlocker_halts_on_zero_divisor.1 _ _ _ _ (by decide) (by decide) (by decide) rfl

/-! ### The clamp -/

/-- The rate `NextInflationRate` returns, under parameters whose bounds are in order, lies between
them. -/
theorem nextInflationRate_bounds (m : Minter) (params : Params) (bondedRatio : Dec) {inflation : Dec}
    (hparams : validateParams params = none)
    (h : m.nextInflationRate params bondedRatio = .ok inflation) :
    params.inflationMin.raw ≤ inflation.raw ∧ inflation.raw ≤ params.inflationMax.raw := by
  have hmax := (validateParams_eq_none_iff.1 hparams).2.2.1
  unfold Minter.nextInflationRate at h
  -- only the last steps matter: the rate added is clamped from above, then from below
  obtain ⟨ratio, -, h⟩ := except_bind_eq_ok.1 h
  obtain ⟨gap, -, h⟩ := except_bind_eq_ok.1 h
  obtain ⟨perYear, -, h⟩ := except_bind_eq_ok.1 h
  obtain ⟨change, -, h⟩ := except_bind_eq_ok.1 h
  obtain ⟨added, -, h⟩ := except_bind_eq_ok.1 h
  simp only [except_pure, Except.ok.injEq] at h
  rw [← h]
  simp only [Dec.gt, Dec.lt, decide_eq_true_eq]
  split_ifs with hgt hlt hlt' <;> omega

example :
    validateParams defaultParams = none ∧
      defaultInitialMinter.nextInflationRate defaultParams (Dec.newDecWithPrec 5 1) =
        .ok ⟨130000005226169707⟩ ∧
      defaultParams.inflationMin.raw ≤ 130000005226169707 ∧ 130000005226169707 ≤ defaultParams.inflationMax.raw := by
  have hparams : validateParams defaultParams = none := by
    rw [validateParams_eq_none_iff]
    decide
  have hrate : defaultInitialMinter.nextInflationRate defaultParams (Dec.newDecWithPrec 5 1) =
      .ok ⟨130000005226169707⟩ := by
    rfl
  exact ⟨hparams, hrate, nextInflationRate_bounds _ _ _ hparams hrate⟩

end CosmosSdk.Mint
