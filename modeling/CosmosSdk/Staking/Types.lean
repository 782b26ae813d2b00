import CosmosSdk.Types.Decimal
import CosmosSdk.Lib.StateExcept
import Mathlib.Tactic.Linarith

/-!
# Staking types

The records of `x/staking/types`: the bonded and not-bonded `Pool`, `Validator` with its token and
share accounting (`AddTokensFromDel`, `RemoveDelShares`, `RemoveTokens`, `UpdateStatus`), and the
delegation, unbonding-delegation and redelegation records.  Addresses (`sdk.AccAddress`,
`sdk.ValAddress`, `sdk.ConsAddress`) are values of one linearly ordered type `A`, their byte order.
Times are nanoseconds (`Int`).

The token moves between the two halves of the pool panic when a half would go negative, as the code's
sanity checks do; every `sdk.Int` and `sdk.Dec` operation panics on overflow.
-/

namespace CosmosSdk.Staking

open StateExcept

/-- `sdk.BondStatus`. -/
inductive BondStatus
  | unbonded
  | unbonding
  | bonded
  deriving DecidableEq

/-- `Pool`: the bond denomination's tokens, bonded to a validator or not. -/
structure Pool where
  notBondedTokens : Int
  bondedTokens : Int

/-- `DefaultCodespace`, the module's name. -/
def defaultCodespace : String := "staking"

/-- `CodeInvalidValidator`. -/
def codeInvalidValidator : Nat := 101

/-- `CodeInvalidDelegation`. -/
def codeInvalidDelegation : Nat := 102

/-- `CodeInvalidInput`. -/
def codeInvalidInput : Nat := 103

/-- `CodeInvalidAddress`, the root code. -/
def codeInvalidAddress : Nat := 7

/-- A staking error: `sdk.NewError(codespace, code, msg)`. -/
def newError (code : Nat) (msg : String) : Error := ⟨defaultCodespace, code, msg⟩

/-! ### Errors of `types/errors.go` -/

def errNilValidatorAddr : Error := newError codeInvalidInput "validator address is nil"
def errBadValidatorAddr : Error := newError codeInvalidAddress "validator address is invalid"
def errNoValidatorFound : Error :=
  newError codeInvalidValidator "validator does not exist for that address"
def errValidatorOwnerExists : Error := newError codeInvalidValidator
  "validator already exist for this operator address, must use new validator operator address"
def errValidatorPubKeyExists : Error :=
  newError codeInvalidValidator "validator already exist for this pubkey, must use new validator pubkey"
def errDescriptionLength (descriptor : String) (got maxLength : Nat) : Error :=
  newError codeInvalidValidator ("bad description length for " ++ descriptor ++ ", got length " ++
    toString got ++ ", max is " ++ toString maxLength)
def errCommissionNegative : Error := newError codeInvalidValidator "commission must be positive"
def errCommissionHuge : Error := newError codeInvalidValidator "commission cannot be more than 100%"
def errCommissionGTMaxRate : Error :=
  newError codeInvalidValidator "commission cannot be more than the max rate"
def errCommissionUpdateTime : Error :=
  newError codeInvalidValidator "commission cannot be changed more than once in 24h"
def errCommissionChangeRateNegative : Error :=
  newError codeInvalidValidator "commission change rate must be positive"
def errCommissionChangeRateGTMaxRate : Error :=
  newError codeInvalidValidator "commission change rate cannot be more than the max rate"
def errCommissionGTMaxChangeRate : Error :=
  newError codeInvalidValidator "commission cannot be changed more than max change rate"
def errSelfDelegationBelowMinimum : Error := newError codeInvalidValidator
  "validator\x27s self delegation must be greater than their minimum self delegation"
def errMinSelfDelegationInvalid : Error :=
  newError codeInvalidValidator "minimum self delegation must be a positive integer"
def errMinSelfDelegationDecreased : Error :=
  newError codeInvalidValidator "minimum self delegation cannot be decrease"
def errNilDelegatorAddr : Error := newError codeInvalidInput "delegator address is nil"
def errBadDenom : Error := newError codeInvalidDelegation "invalid coin denomination"
def errBadDelegationAmount : Error := newError codeInvalidDelegation "amount must be > 0"
def errNoDelegatorForAddress : Error :=
  newError codeInvalidDelegation "delegator does not contain this delegation"
def errNotEnoughDelegationShares (shares : String) : Error :=
  newError codeInvalidDelegation ("not enough shares only have " ++ shares)
def errBadSharesAmount : Error := newError codeInvalidDelegation "shares must be > 0"
def errNoUnbondingDelegation : Error := newError codeInvalidDelegation "no unbonding delegation found"
def errMaxUnbondingDelegationEntries : Error := newError codeInvalidDelegation
  "too many unbonding delegation entries in this delegator/validator duo, please wait for some entries to mature"
def errNoRedelegation : Error := newError codeInvalidDelegation "no redelegation found"
def errSelfRedelegation : Error :=
  newError codeInvalidDelegation "cannot redelegate to the same validator"
def errVerySmallRedelegation : Error :=
  newError codeInvalidDelegation "too few tokens to redelegate, truncates to zero tokens"
def errBadRedelegationDst : Error := newError codeInvalidDelegation "redelegation validator not found"
def errTransitiveRedelegation : Error := newError codeInvalidDelegation
  "redelegation to this validator already in progress, first redelegation to this validator must complete before next redelegation"
def errMaxRedelegationEntries : Error := newError codeInvalidDelegation
  "too many redelegation entries in this delegator/src-validator/dst-validator trio, please wait for some entries to mature"
def errDelegatorShareExRateInvalid : Error :=
  newError codeInvalidDelegation "cannot delegate to validators with invalid (zero) ex-rate"

namespace Pool

/-- `notBondedTokensToBonded`. -/
def notBondedTokensToBonded (p : Pool) (bondedTokens : Int) : Except Panic Pool := do
  let bonded ← SdkInt.add p.bondedTokens bondedTokens
  let notBonded ← SdkInt.sub p.notBondedTokens bondedTokens
  if notBonded < 0 then throw (.other "sanity check: not-bonded tokens negative, pool: ")
  pure ⟨notBonded, bonded⟩

/-- `bondedTokensToNotBonded`. -/
def bondedTokensToNotBonded (p : Pool) (bondedTokens : Int) : Except Panic Pool := do
  let bonded ← SdkInt.sub p.bondedTokens bondedTokens
  let notBonded ← SdkInt.add p.notBondedTokens bondedTokens
  if bonded < 0 then throw (.other "sanity check: bonded tokens negative, pool: ")
  pure ⟨notBonded, bonded⟩

end Pool

/-- `Description`. -/
structure Description where
  moniker : String
  identity : String
  website : String
  details : String
  deriving DecidableEq

namespace Description

/-- `DoNotModifyDesc`: a field given as this keeps its value. -/
def doNotModifyDesc : String := "[do-not-modify]"

/-- `EnsureLength`: the byte lengths of the fields are bounded by `MaxMonikerLength` (70),
`MaxIdentityLength` (3000), `MaxWebsiteLength` (140) and `MaxDetailsLength` (280). -/
def ensureLength (d : Description) : Except Error Description :=
  if 70 < d.moniker.utf8ByteSize then .error (errDescriptionLength "moniker" d.moniker.utf8ByteSize 70)
  else if 3000 < d.identity.utf8ByteSize then
    .error (errDescriptionLength "identity" d.identity.utf8ByteSize 3000)
  else if 140 < d.website.utf8ByteSize then
    .error (errDescriptionLength "website" d.website.utf8ByteSize 140)
  else if 280 < d.details.utf8ByteSize then
    .error (errDescriptionLength "details" d.details.utf8ByteSize 280)
  else .ok d

/-- `UpdateDescription`. -/
def updateDescription (d d2 : Description) : Except Error Description :=
  let keep (old new : String) := if new = doNotModifyDesc then old else new
  ensureLength ⟨keep d.moniker d2.moniker, keep d.identity d2.identity, keep d.website d2.website,
    keep d.details d2.details⟩

end Description

/-- `Commission`. -/
structure Commission where
  rate : Dec
  maxRate : Dec
  maxChangeRate : Dec
  updateTime : Int

/-- `NewCommission`: updated at `time.Unix(0, 0)`. -/
def newCommission (rate maxRate maxChangeRate : Dec) : Commission := ⟨rate, maxRate, maxChangeRate, 0⟩

/-- `NewCommissionWithTime`. -/
def newCommissionWithTime (rate maxRate maxChangeRate : Dec) (updatedAt : Int) : Commission :=
  ⟨rate, maxRate, maxChangeRate, updatedAt⟩

namespace Commission

/-- `Commission.Validate`. -/
def validate (c : Commission) : Option Error :=
  if c.maxRate.lt Dec.zero then some errCommissionNegative
  else if c.maxRate.gt Dec.one then some errCommissionHuge
  else if c.rate.lt Dec.zero then some errCommissionNegative
  else if c.rate.gt c.maxRate then some errCommissionGTMaxRate
  else if c.maxChangeRate.lt Dec.zero then some errCommissionChangeRateNegative
  else if c.maxChangeRate.gt c.maxRate then some errCommissionChangeRateGTMaxRate
  else none

/-- `Commission.ValidateNewRate`: at most one change a day (`24h` in nanoseconds), within the
maximum rate and the maximum change. -/
def validateNewRate (c : Commission) (newRate : Dec) (blockTime : Int) : Option Error :=
  if blockTime - c.updateTime < 24 * 3600 * 10 ^ 9 then some errCommissionUpdateTime
  else if newRate.lt Dec.zero then some errCommissionNegative
  else if newRate.gt c.maxRate then some errCommissionGTMaxRate
  else if c.maxChangeRate.raw < (newRate.raw - c.rate.raw).natAbs then some errCommissionGTMaxChangeRate
  else none

end Commission

/-- `Validator`.  `consAddress` is the address of its consensus public key. -/
structure Validator (A : Type) where
  operatorAddress : A
  consAddress : A
  jailed : Bool
  status : BondStatus
  tokens : Int
  delegatorShares : Dec
  description : Description
  unbondingHeight : Int
  unbondingCompletionTime : Int
  commission : Commission
  minSelfDelegation : Int

/-- `PowerReduction`: the tokens for one unit of Tendermint power. -/
def powerReduction : Int := 10 ^ 6

/-- `TokensToTendermintPower`. -/
def tokensToTendermintPower (tokens : Int) : Except Panic Int := do
  let power ← SdkInt.quo tokens powerReduction
  SdkInt.int64 power

namespace Validator

variable {A : Type}

/-- `NewValidator`. -/
def new (operator consAddress : A) (description : Description) : Validator A :=
  { operatorAddress := operator, consAddress := consAddress, jailed := false,
    status := .unbonded, tokens := 0, delegatorShares := Dec.zero, description := description,
    unbondingHeight := 0, unbondingCompletionTime := 0,
    commission := newCommission Dec.zero Dec.zero Dec.zero, minSelfDelegation := 1 }

/-- `SetInitialCommission`. -/
def setInitialCommission (v : Validator A) (commission : Commission) : Except Error (Validator A) :=
  match commission.validate with
  | some err => .error err
  | none => .ok { v with commission := commission }

theorem setInitialCommission_eq_ok {v v' : Validator A} {commission : Commission}
    (h : v.setInitialCommission commission = .ok v') : v' = { v with commission := commission } := by
  unfold setInitialCommission at h
  split at h
  · cases h
  · cases h
    rfl

/-- `UpdateStatus`: tokens follow the validator into or out of the bonded pool. -/
def updateStatus (v : Validator A) (pool : Pool) (newStatus : BondStatus) :
    Except Panic (Validator A × Pool) := do
  let pool ← match v.status, newStatus with
    | .unbonded, .unbonded => return (v, pool)
    | .unbonded, .bonded => pool.notBondedTokensToBonded v.tokens
    | .unbonding, .unbonding => return (v, pool)
    | .unbonding, .bonded => pool.notBondedTokensToBonded v.tokens
    | .bonded, .bonded => return (v, pool)
    | .bonded, _ => pool.bondedTokensToNotBonded v.tokens
    | _, _ => pure pool
  pure ({ v with status := newStatus }, pool)

theorem updateStatus_eq_ok {v v' : Validator A} {pool pool' : Pool} {newStatus : BondStatus}
    (h : v.updateStatus pool newStatus = .ok (v', pool')) : v' = { v with status := newStatus } := by
  unfold updateStatus at h
  cases hs : v.status <;> cases newStatus <;> simp only [hs] at h
  all_goals first
    | obtain ⟨_, _, h⟩ := except_bind_eq_ok.1 h
      exact (Prod.mk.inj (Except.ok.inj h)).1.symm
    | obtain ⟨rfl, -⟩ := Prod.mk.inj (Except.ok.inj h)
      rw [← hs]

/-- `RemoveTokens`. -/
def removeTokens (v : Validator A) (pool : Pool) (tokens : Int) :
    Except Panic (Validator A × Pool) := do
  if tokens < 0 then throw (.other "should not happen: trying to remove negative tokens ")
  if v.tokens < tokens then throw (.other "should not happen: only have tokens, trying to remove ")
  let remaining ← SdkInt.sub v.tokens tokens
  let pool ← (if v.status = .bonded then pool.bondedTokensToNotBonded tokens else pure pool)
  pure ({ v with tokens := remaining }, pool)

theorem removeTokens_eq_ok {v v' : Validator A} {pool pool' : Pool} {tokens : Int}
    (h : v.removeTokens pool tokens = .ok (v', pool')) :
    v' = { v with tokens := v.tokens - tokens } ∧ 0 ≤ tokens ∧ tokens ≤ v.tokens ∧
      (if v.status = .bonded then pool.bondedTokensToNotBonded tokens else pure pool) = .ok pool' := by
  unfold removeTokens at h
  dsimp only at h
  split at h
  · cases h
  rename_i hneg
  split at h
  · obtain ⟨_, h, _⟩ := except_bind_eq_ok.1 h
    cases h
  rename_i hle
  obtain ⟨remaining, hremaining, h⟩ := except_bind_eq_ok.1 h
  obtain ⟨pool₁, hpool, h⟩ := except_bind_eq_ok.1 h
  simp only [pure, Except.pure, Except.ok.injEq, Prod.mk.injEq] at h
  obtain ⟨rfl, rfl⟩ := h
  exact ⟨by rw [SdkInt.sub_eq_ok hremaining], by omega, by omega, hpool⟩

/-- `AddTokensFromDel`: the first delegation sets the exchange rate to one; later ones get
`DelegatorShares · amount / Tokens`, truncated.  Returns the issued shares. -/
def addTokensFromDel (v : Validator A) (pool : Pool) (amount : Int) :
    Except Panic (Validator A × Pool × Dec) := do
  let issuedShares ← (if v.delegatorShares.isZero then pure (Dec.newDecFromInt amount)
    else do
      let product ← v.delegatorShares.mulInt amount
      product.quoInt v.tokens)
  let pool ← (if v.status = .bonded then pool.notBondedTokensToBonded amount else pure pool)
  let tokens ← SdkInt.add v.tokens amount
  let delegatorShares ← v.delegatorShares.add issuedShares
  pure ({ v with tokens := tokens, delegatorShares := delegatorShares }, pool, issuedShares)

theorem addTokensFromDel_eq_ok {v v' : Validator A} {pool pool' : Pool} {amount : Int} {issued : Dec}
    (h : v.addTokensFromDel pool amount = .ok (v', pool', issued)) :
    v' = { v with tokens := v.tokens + amount,
                  delegatorShares := ⟨v.delegatorShares.raw + issued.raw⟩ } ∧
      (v.delegatorShares.raw = 0 → issued.raw = amount * precisionReuse) ∧
      (v.delegatorShares.raw ≠ 0 →
        v.tokens ≠ 0 ∧ issued.raw = (v.delegatorShares.raw * amount).tdiv v.tokens) ∧
      (if v.status = .bonded then pool.notBondedTokensToBonded amount else pure pool) = .ok pool' := by
  unfold addTokensFromDel at h
  obtain ⟨issued₀, hissued, h⟩ := except_bind_eq_ok.1 h
  obtain ⟨pool₁, hpool, h⟩ := except_bind_eq_ok.1 h
  obtain ⟨tokens, htokens, h⟩ := except_bind_eq_ok.1 h
  obtain ⟨shares, hshares, h⟩ := except_bind_eq_ok.1 h
  simp only [pure, Except.pure, Except.ok.injEq, Prod.mk.injEq] at h
  obtain ⟨rfl, rfl, rfl⟩ := h
  have hzero : v.delegatorShares.isZero = true ↔ v.delegatorShares.raw = 0 := by simp [Dec.isZero]
  refine ⟨?_, fun hS => ?_, fun hS => ?_, hpool⟩
  · rw [SdkInt.add_eq_ok htokens, ← Dec.add_eq_ok hshares]
  · rw [if_pos (hzero.2 hS)] at hissued
    simp only [pure, Except.pure, Except.ok.injEq] at hissued
    rw [← hissued]
    rfl
  · rw [if_neg (mt hzero.1 hS)] at hissued
    obtain ⟨product, hproduct, hquo⟩ := except_bind_eq_ok.1 hissued
    obtain ⟨hT, hraw⟩ := Dec.quoInt_eq_ok hquo
    exact ⟨hT, by rw [hraw, Dec.mulInt_eq_ok hproduct]⟩

/-- `ShareTokens`: the token worth of `shares`, `shares · Tokens / DelegatorShares` by `Quo`. -/
def shareTokens (v : Validator A) (shares : Dec) : Except Panic Dec := do
  let product ← shares.mulInt v.tokens
  product.quo v.delegatorShares

/-- `ShareTokensTruncated`: the same by `QuoTruncate`. -/
def shareTokensTruncated (v : Validator A) (shares : Dec) : Except Panic Dec := do
  let product ← shares.mulInt v.tokens
  product.quoTruncate v.delegatorShares

/-- `RemoveDelShares`: the last shares take every token left; otherwise the tokens paid are
`ShareTokens(delShares).TruncateInt()`.  Returns the tokens paid. -/
def removeDelShares (v : Validator A) (pool : Pool) (delShares : Dec) :
    Except Panic (Validator A × Pool × Int) := do
  let remainingShares ← v.delegatorShares.sub delShares
  let (issuedTokens, tokens) ← (if remainingShares.isZero then pure (v.tokens, 0)
    else do
      -- leave excess tokens in the validator, but use all the delegator shares
      let worth ← v.shareTokens delShares
      let issuedTokens ← worth.truncateInt
      let tokens ← SdkInt.sub v.tokens issuedTokens
      if tokens < 0 then throw (.other "attempting to remove more tokens than available in validator")
      pure (issuedTokens, tokens))
  let pool ← (if v.status = .bonded then pool.bondedTokensToNotBonded issuedTokens else pure pool)
  pure ({ v with tokens := tokens, delegatorShares := remainingShares }, pool, issuedTokens)

theorem removeDelShares_eq_ok {v v' : Validator A} {pool pool' : Pool} {delShares : Dec} {paid : Int}
    (h : v.removeDelShares pool delShares = .ok (v', pool', paid)) :
    ∃ tokens, v' = { v with tokens := tokens,
                            delegatorShares := ⟨v.delegatorShares.raw - delShares.raw⟩ } ∧
      (v.delegatorShares.raw - delShares.raw = 0 → paid = v.tokens ∧ tokens = 0) ∧
      (v.delegatorShares.raw - delShares.raw ≠ 0 →
        v.delegatorShares.raw ≠ 0 ∧ tokens = v.tokens - paid ∧ 0 ≤ tokens ∧
        paid = (chopPrecisionAndRound ((delShares.raw * v.tokens * precisionReuse * precisionReuse).tdiv
          v.delegatorShares.raw)).tdiv precisionReuse) ∧
      (if v.status = .bonded then pool.bondedTokensToNotBonded paid else pure pool) = .ok pool' := by
  unfold removeDelShares at h
  obtain ⟨remaining, hremaining, h⟩ := except_bind_eq_ok.1 h
  obtain ⟨⟨issuedTokens, tokens⟩, hissued, h⟩ := except_bind_eq_ok.1 h
  obtain ⟨pool₁, hpool, h⟩ := except_bind_eq_ok.1 h
  simp only [pure, Except.pure, Except.ok.injEq, Prod.mk.injEq] at h
  obtain ⟨rfl, rfl, rfl⟩ := h
  have hraw := Dec.sub_eq_ok hremaining
  refine ⟨tokens, by rw [← hraw], fun hz => ?_, fun hz => ?_, hpool⟩
  · rw [if_pos (by simp [Dec.isZero, hraw, hz])] at hissued
    simp only [pure, Except.pure, Except.ok.injEq, Prod.mk.injEq] at hissued
    exact ⟨hissued.1.symm, hissued.2.symm⟩
  · rw [if_neg (by simp [Dec.isZero, hraw, hz])] at hissued
    obtain ⟨worth, hworth, hissued⟩ := except_bind_eq_ok.1 hissued
    obtain ⟨paid', hpaid, hissued⟩ := except_bind_eq_ok.1 hissued
    obtain ⟨tokens', htokens, hissued⟩ := except_bind_eq_ok.1 hissued
    split at hissued
    · simp [throw, throwThe, MonadExceptOf.throw] at hissued
    · simp only [pure, Except.pure, Except.ok.injEq, Prod.mk.injEq] at hissued
      obtain ⟨rfl, rfl⟩ := hissued
      obtain ⟨product, hproduct, hquo⟩ := except_bind_eq_ok.1 hworth
      obtain ⟨hS, hworthRaw⟩ := Dec.quo_eq_ok hquo
      refine ⟨hS, SdkInt.sub_eq_ok htokens, by omega, ?_⟩
      rw [Dec.truncateInt_eq_ok hpaid, hworthRaw, Dec.mulInt_eq_ok hproduct]

/-- `InvalidExRate`: no tokens left for outstanding shares. -/
def invalidExRate (v : Validator A) : Bool := v.tokens == 0 && v.delegatorShares.isPositive

/-- `ShareTokens` rounds to nearest before `TruncateInt`, so the tokens paid for all shares but
`10⁻¹⁸` of a validator at rate `0.4` are all its tokens: the share left over is worth nothing. -/
theorem removeDelShares_pays_out_remaining_tokens :
    (({ Validator.new 0 0 ⟨"", "", "", ""⟩ with
          status := .bonded, tokens := 400000, delegatorShares := ⟨10 ^ 24⟩ } : Validator Nat).removeDelShares
        ⟨0, 400000⟩ ⟨10 ^ 24 - 1⟩).map (fun r => (r.1.tokens, r.1.delegatorShares.raw, r.2.2, r.1.invalidExRate)) =
      .ok (0, 1, 400000, true) := by
  rfl

/-- `BondedTokens`. -/
def bondedTokens (v : Validator A) : Int := if v.status = .bonded then v.tokens else 0

/-- `PotentialTendermintPower`. -/
def potentialTendermintPower (v : Validator A) : Except Panic Int := tokensToTendermintPower v.tokens

/-- `TendermintPower`: the potential power of a bonded validator, zero otherwise. -/
def tendermintPower (v : Validator A) : Except Panic Int :=
  if v.status = .bonded then v.potentialTendermintPower else pure 0

/-- A positive delegation to a validator with no more tokens than raw shares is issued positive
shares, and leaves the validator with no more tokens than raw shares. -/
theorem addTokensFromDel_bounds {v v' : Validator A} {pool pool' : Pool} {amount : Int} {issued : Dec}
    (hnonneg : 0 ≤ v.tokens) (hle : v.tokens ≤ v.delegatorShares.raw) (hamount : 0 < amount)
    (h : v.addTokensFromDel pool amount = .ok (v', pool', issued)) :
    0 < issued.raw ∧ v'.tokens ≤ v'.delegatorShares.raw := by
  obtain ⟨rfl, hfirst, hlater, -⟩ := addTokensFromDel_eq_ok h
  show 0 < issued.raw ∧ v.tokens + amount ≤ v.delegatorShares.raw + issued.raw
  by_cases hS : v.delegatorShares.raw = 0
  · -- the first delegation: no tokens yet, and one share per token
    have hP : (1 : Int) ≤ precisionReuse := by
      unfold precisionReuse
      exact_mod_cast Nat.one_le_pow _ _ (by norm_num)
    rw [hfirst hS]
    constructor <;> nlinarith
  · -- later ones: `shares · amount / tokens` is at least `amount`
    obtain ⟨hT, hraw⟩ := hlater hS
    have hTpos : 0 < v.tokens := lt_of_le_of_ne hnonneg (Ne.symm hT)
    have hge : amount ≤ issued.raw := by
      rw [hraw, Int.tdiv_eq_ediv_of_nonneg (by nlinarith), Int.le_ediv_iff_mul_le hTpos]
      nlinarith
    omega

/-- Paying at least the floor of the worth of `s` keeps the tokens left within the shares left. -/
theorem sub_floor_le {s T S : Int} (hs : 0 ≤ s) (hsS : s ≤ S) (hT : T ≤ S) (hS : 0 < S) :
    T - s * T / S ≤ S - s := by
  have h := Int.lt_ediv_add_one_mul_self (s * T) hS
  nlinarith

/-- Unbonding at most all the shares of a validator with no more tokens than raw shares pays a
nonnegative amount, and leaves it with no more tokens than raw shares. -/
theorem removeDelShares_bounds {v v' : Validator A} {pool pool' : Pool} {delShares : Dec} {paid : Int}
    (hnonneg : 0 ≤ v.tokens) (hle : v.tokens ≤ v.delegatorShares.raw) (hs : 0 ≤ delShares.raw)
    (hsS : delShares.raw ≤ v.delegatorShares.raw)
    (h : v.removeDelShares pool delShares = .ok (v', pool', paid)) :
    0 ≤ paid ∧ 0 ≤ v'.tokens ∧ v'.tokens ≤ v'.delegatorShares.raw := by
  obtain ⟨tokens, rfl, hlast, hrest, -⟩ := removeDelShares_eq_ok h
  show 0 ≤ paid ∧ 0 ≤ tokens ∧ tokens ≤ v.delegatorShares.raw - delShares.raw
  by_cases hz : v.delegatorShares.raw - delShares.raw = 0
  · -- the last shares take every token
    obtain ⟨rfl, rfl⟩ := hlast hz
    omega
  · -- otherwise at least the floor of their worth is paid
    obtain ⟨-, rfl, htokens, hpaid⟩ := hrest hz
    have hS : 0 < v.delegatorShares.raw := by omega
    have hfloor := floor_le_truncateInt_quo hs hnonneg hS
    rw [← hpaid] at hfloor
    have hfloor0 : 0 ≤ delShares.raw * v.tokens / v.delegatorShares.raw :=
      Int.ediv_nonneg (mul_nonneg hs hnonneg) hS.le
    have hsub := sub_floor_le hs hsS hle hS
    omega

end Validator

/-- `Delegation`. -/
structure Delegation (A : Type) where
  delegatorAddress : A
  validatorAddress : A
  shares : Dec

/-- `UnbondingDelegationEntry`. -/
structure UnbondingDelegationEntry where
  creationHeight : Int
  completionTime : Int
  initialBalance : Int
  balance : Int
  deriving DecidableEq

/-- `UnbondingDelegationEntry.IsMature`: the completion time is not after `currentTime`. -/
def UnbondingDelegationEntry.isMature (e : UnbondingDelegationEntry) (currentTime : Int) : Bool :=
  e.completionTime ≤ currentTime

/-- `NewUnbondingDelegationEntry`. -/
def newUnbondingDelegationEntry (creationHeight completionTime balance : Int) :
    UnbondingDelegationEntry :=
  ⟨creationHeight, completionTime, balance, balance⟩

/-- `UnbondingDelegation`. -/
structure UnbondingDelegation (A : Type) where
  delegatorAddress : A
  validatorAddress : A
  entries : List UnbondingDelegationEntry

/-- `RedelegationEntry`. -/
structure RedelegationEntry where
  creationHeight : Int
  completionTime : Int
  initialBalance : Int
  sharesDst : Dec

/-- `RedelegationEntry.IsMature`. -/
def RedelegationEntry.isMature (e : RedelegationEntry) (currentTime : Int) : Bool :=
  e.completionTime ≤ currentTime

/-- `Redelegation`. -/
structure Redelegation (A : Type) where
  delegatorAddress : A
  validatorSrcAddress : A
  validatorDstAddress : A
  entries : List RedelegationEntry

/-- `Params`. -/
structure Params where
  unbondingTime : Int
  maxValidators : Nat
  maxEntries : Nat
  bondDenom : String

end CosmosSdk.Staking
