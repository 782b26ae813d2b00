import CosmosSdk.Staking.Frame

/-!
# The slashing keeper

The slashing module (`x/slashing`) beside the staking keeper.  Its store keeps, by consensus address,
a signing info (`ValidatorSigningInfo`), the bit array of the blocks the validator missed, and the
relation of the address to its public key; and the module's parameters.

The application's state is `Staking.State A (State A ε)`: the slashing state sits in the rest of the
staking keeper's state, and `ε` holds the modules beyond both.  The slashing keeper's methods run in
the staking keeper's monad: they reach their store in the rest, and call the staking keeper's
`Slash`, `Jail` and `Unjail` (its `sdk.ValidatorSet`).  The slashing hooks act on the slashing state;
`appKeeper` is the staking keeper of the application, whose hooks run the other modules' hooks and
then the slashing hooks (`NewStakingHooks` of the application).

* `handleValidatorSignature`: the missed-block bit array is a ring of `SignedBlocksWindow` slots, the
  block's slot being `IndexOffset % SignedBlocksWindow`; a bit is written only when it changes, and
  `MissedBlocksCounter` moves with it.  Past `StartHeight + SignedBlocksWindow`, a validator that
  missed more than `SignedBlocksWindow - MinSignedPerWindow` blocks is slashed and jailed, and its
  window starts over.
* `handleDoubleSign`: evidence against a validator that is known, not unbonded and not tombstoned
  slashes it, jails it, and tombstones its signing info for good.
* `handleMsgUnjail`, the hooks of `hooks.go`, and `BeginBlocker`.

`IndexOffset` and `MissedBlocksCounter` are `int64` in the code and integers here: one grows by one a
block, the other stays within the window.  Logging is left out, but not what its arguments compute:
the log line of a missed block computes `MinSignedPerWindow`, which may panic.
-/

namespace CosmosSdk.Slashing

open Staking (Ctx Validator StakingHooks BankKeeper)

/-- `ValidatorSigningInfo`. -/
structure ValidatorSigningInfo where
  startHeight : Int
  indexOffset : Int
  jailedUntil : Int
  tombstoned : Bool
  missedBlocksCounter : Int
  deriving DecidableEq

/-- `Params`, durations in nanoseconds. -/
structure Params where
  maxEvidenceAge : Int
  signedBlocksWindow : Int
  minSignedPerWindow : Dec
  downtimeJailDuration : Int
  slashFractionDoubleSign : Dec
  slashFractionDowntime : Dec

/-- `DoubleSignJailEndTime`: `time.Unix(253402300799, 0)`. -/
def doubleSignJailEndTime : Int := 253402300799 * 10 ^ 9

/-- `sdk.ValidatorUpdateDelay`. -/
def validatorUpdateDelay : Int := 1

/-- `time.Time.Sub`: the difference, saturated to the range of `time.Duration`. -/
def timeSub (t u : Int) : Int := max (-2 ^ 63) (min (2 ^ 63 - 1) (t - u))

/-- `tmtypes.ABCIEvidenceTypeDuplicateVote`. -/
def abciEvidenceTypeDuplicateVote : String := "duplicate/vote"

/-! ### Errors of `errors.go` -/

/-- `DefaultCodespace`, the module's name. -/
def defaultCodespace : String := "slashing"

def codeInvalidValidator : Nat := 101
def codeValidatorJailed : Nat := 102
def codeValidatorNotJailed : Nat := 103
def codeMissingSelfDelegation : Nat := 104

/-- A slashing error: `sdk.NewError(codespace, code, msg)`. -/
def newError (code : Nat) (msg : String) : Error := ⟨defaultCodespace, code, msg⟩

def errNoValidatorForAddress : Error :=
  newError codeInvalidValidator "that address is not associated with any known validator"
def errValidatorJailed : Error :=
  newError codeValidatorJailed "validator still jailed, cannot yet be unjailed"
def errValidatorNotJailed : Error :=
  newError codeValidatorNotJailed "validator not jailed, cannot be unjailed"
def errMissingSelfDelegation : Error :=
  newError codeMissingSelfDelegation "validator has no self-delegation; cannot be unjailed"

/-- `ErrSelfDelegationTooLowToUnjail`, under the code of `ErrValidatorNotJailed` as in the code. -/
def errSelfDelegationTooLowToUnjail : Error := newError codeValidatorNotJailed
  "validator\x27s self delegation less than MinSelfDelegation, cannot be unjailed"

/-! ### The store -/

/-- The slashing store.  The bit array of an address holds the keys
`GetValidatorMissedBlockBitArrayKey(address, index)` under the address's prefix, by index. -/
structure Store (A : Type) where
  signingInfos : MemDB A ValidatorSigningInfo
  missedBlockBitArray : MemDB A (MemDB Int Bool)
  addrPubkeyRelation : MemDB A A
  params : Params

/-- The slashing module's state, and the rest of the application beyond staking and slashing. -/
structure State (A ε : Type) where
  store : Store A
  rest : ε

namespace Store

variable {A : Type} [DecidableEq A]

/-- `getValidatorSigningInfo`. -/
def getValidatorSigningInfo (st : Store A) (address : A) : Option ValidatorSigningInfo :=
  st.signingInfos.lookup address

/-- `SetValidatorSigningInfo`. -/
def setValidatorSigningInfo (st : Store A) (address : A) (info : ValidatorSigningInfo) : Store A :=
  { st with signingInfos := st.signingInfos.insert address info }

/-- `getValidatorMissedBlockBitArray`: an absent key is a block not missed. -/
def getValidatorMissedBlockBitArray (st : Store A) (address : A) (index : Int) : Bool :=
  ((st.missedBlockBitArray.lookup address).bind fun bits => bits.lookup index).getD false

/-- `setValidatorMissedBlockBitArray`. -/
def setValidatorMissedBlockBitArray (st : Store A) (address : A) (index : Int) (missed : Bool) :
    Store A :=
  let bits := ((st.missedBlockBitArray.lookup address).getD ∅).insert index missed
  { st with missedBlockBitArray := st.missedBlockBitArray.insert address bits }

/-- `clearValidatorMissedBlockBitArray`: every key under the address's prefix is deleted. -/
def clearValidatorMissedBlockBitArray (st : Store A) (address : A) : Store A :=
  { st with missedBlockBitArray := st.missedBlockBitArray.erase address }

/-- `getPubkey`: the key recorded for an address; the code's error for none is `none`. -/
def getPubkey (st : Store A) (address : A) : Option A := st.addrPubkeyRelation.lookup address

/-- `addPubkey`: a key, given by its address, is recorded under it. -/
def addPubkey (st : Store A) (pubkey : A) : Store A :=
  { st with addrPubkeyRelation := st.addrPubkeyRelation.insert pubkey pubkey }

/-- `deleteAddrPubkeyRelation`. -/
def deleteAddrPubkeyRelation (st : Store A) (addr : A) : Store A :=
  { st with addrPubkeyRelation := st.addrPubkeyRelation.erase addr }

/-- `MinSignedPerWindow`: `minSignedPerWindow.MulInt64(SignedBlocksWindow).RoundInt64()`. -/
def minSignedPerWindow (st : Store A) : Except Panic Int := do
  let product ← st.params.minSignedPerWindow.mulInt st.params.signedBlocksWindow
  product.roundInt64

omit [DecidableEq A] in
/-- `MinSignedPerWindow` reads the parameters alone. -/
theorem minSignedPerWindow_of_params {st st' : Store A} (h : st'.params = st.params) :
    st'.minSignedPerWindow = st.minSignedPerWindow := by
  unfold minSignedPerWindow
  rw [h]

@[simp] theorem getValidatorSigningInfo_setValidatorSigningInfo (st : Store A) (a b : A)
    (info : ValidatorSigningInfo) :
    (st.setValidatorSigningInfo a info).getValidatorSigningInfo b =
      if b = a then some info else st.getValidatorSigningInfo b := by
  by_cases hb : b = a
  · rw [if_pos hb, hb]
    exact Finmap.lookup_insert _
  · rw [if_neg hb]
    exact Finmap.lookup_insert_of_ne _ hb

@[simp] theorem getValidatorMissedBlockBitArray_setValidatorMissedBlockBitArray (st : Store A)
    (a b : A) (i j : Int) (missed : Bool) :
    (st.setValidatorMissedBlockBitArray a i missed).getValidatorMissedBlockBitArray b j =
      if b = a ∧ j = i then missed else st.getValidatorMissedBlockBitArray b j := by
  unfold getValidatorMissedBlockBitArray setValidatorMissedBlockBitArray
  by_cases hb : b = a
  · subst hb
    by_cases hj : j = i
    · subst hj
      simp [Finmap.lookup_insert]
    · cases st.missedBlockBitArray.lookup b <;> simp [hj]
  · simp [hb]

@[simp] theorem getValidatorMissedBlockBitArray_clearValidatorMissedBlockBitArray (st : Store A)
    (a b : A) (j : Int) :
    (st.clearValidatorMissedBlockBitArray a).getValidatorMissedBlockBitArray b j =
      if b = a then false else st.getValidatorMissedBlockBitArray b j := by
  unfold getValidatorMissedBlockBitArray clearValidatorMissedBlockBitArray
  by_cases hb : b = a
  · subst hb
    simp [Finmap.lookup_erase]
  · simp [hb, Finmap.lookup_erase_ne hb]

@[simp] theorem setValidatorSigningInfo_params (st : Store A) (a : A) (info : ValidatorSigningInfo) :
    (st.setValidatorSigningInfo a info).params = st.params := rfl

@[simp] theorem setValidatorMissedBlockBitArray_params (st : Store A) (a : A) (i : Int) (m : Bool) :
    (st.setValidatorMissedBlockBitArray a i m).params = st.params := rfl

@[simp] theorem clearValidatorMissedBlockBitArray_params (st : Store A) (a : A) :
    (st.clearValidatorMissedBlockBitArray a).params = st.params := rfl

@[simp] theorem setValidatorMissedBlockBitArray_signingInfo (st : Store A) (a b : A) (i : Int)
    (m : Bool) :
    (st.setValidatorMissedBlockBitArray a i m).getValidatorSigningInfo b =
      st.getValidatorSigningInfo b := rfl

@[simp] theorem setValidatorSigningInfo_missedBlockBitArray (st : Store A) (a b : A)
    (info : ValidatorSigningInfo) (j : Int) :
    (st.setValidatorSigningInfo a info).getValidatorMissedBlockBitArray b j =
      st.getValidatorMissedBlockBitArray b j := rfl

@[simp] theorem clearValidatorMissedBlockBitArray_signingInfo (st : Store A) (a b : A) :
    (st.clearValidatorMissedBlockBitArray a).getValidatorSigningInfo b =
      st.getValidatorSigningInfo b := rfl

end Store

/-! ### Access to the slashing state -/

section Access

open StateExcept

variable {A ε : Type}

/-- A computation on the modules beyond slashing, run on the slashing state. -/
def onOther {α : Type} (f : StateT ε (Except Panic) α) : StateT (State A ε) (Except Panic) α :=
  fun t => do
    let (a, rest) ← f t.rest
    pure (a, { t with rest := rest })

/-- The slashing store, in the rest of the staking keeper's state. -/
def getSlashingStore : Staking.KeeperM A (State A ε) (Store A) := do
  return (← get).rest.store

/-- Update the slashing store. -/
def modifySlashingStore (f : Store A → Store A) : Staking.KeeperM A (State A ε) Unit :=
  modify fun s => { s with rest := { s.rest with store := f s.rest.store } }

/-- `GetParams`. -/
def getParams : Staking.KeeperM A (State A ε) Params := do
  return (← getSlashingStore).params

/-- `Keeper.MinSignedPerWindow`. -/
def getMinSignedPerWindow : Staking.KeeperM A (State A ε) Int := do
  liftM (← getSlashingStore).minSignedPerWindow

theorem onOther_eq_ok {α : Type} {f : StateT ε (Except Panic) α} {t t' : State A ε} {a : α} :
    onOther f t = .ok (a, t') ↔ ∃ rest, f t.rest = .ok (a, rest) ∧ t' = { t with rest := rest } := by
  unfold onOther
  cases f t.rest with
  | error e => simp [bind, Except.bind]
  | ok p =>
    obtain ⟨b, rest⟩ := p
    simp [bind, Except.bind, pure, Except.pure, eq_comm]

variable {s s' : Staking.State A (State A ε)}

@[simp] theorem getSlashingStore_eq_ok {st : Store A} :
    getSlashingStore s = .ok (st, s') ↔ s.rest.store = st ∧ s = s' := by
  show Except.ok (s.rest.store, s) = _ ↔ _
  simp

@[simp] theorem modifySlashingStore_eq_ok {f : Store A → Store A} {u : Unit} :
    modifySlashingStore f s = .ok (u, s') ↔
      s' = { s with rest := { s.rest with store := f s.rest.store } } :=
  modify_eq_ok

@[simp] theorem getParams_eq_ok {params : Params} :
    getParams s = .ok (params, s') ↔ s.rest.store.params = params ∧ s = s' := by
  show Except.ok (s.rest.store.params, s) = _ ↔ _
  simp

@[simp] theorem getMinSignedPerWindow_eq_ok {m : Int} :
    getMinSignedPerWindow s = .ok (m, s') ↔ s.rest.store.minSignedPerWindow = .ok m ∧ s = s' := by
  unfold getMinSignedPerWindow
  rw [bind_eq_ok]
  simp [and_comm]

end Access

/-! ### Hooks -/

variable {A ε : Type} [LinearOrder A]

/-- `AfterValidatorBonded`: a signing info from this height, unless the address has one. -/
def afterValidatorBonded (ctx : Ctx) (address : A) : StateT (State A ε) (Except Panic) Unit :=
  modify fun t => match t.store.getValidatorSigningInfo address with
    | some _ => t
    | none => { t with store := t.store.setValidatorSigningInfo address ⟨ctx.height, 0, 0, false, 0⟩ }

/-- `AfterValidatorCreated`: the validator's key is recorded.  A validator that is not stored is
`nil`, and reading its key panics. -/
def afterValidatorCreated (st : Staking.Store A) (valAddr : A) :
    StateT (State A ε) (Except Panic) Unit :=
  match st.validators.lookup valAddr with
  | some validator => modify fun t => { t with store := t.store.addPubkey validator.consAddress }
  | none => throw (.other "runtime error: invalid memory address or nil pointer dereference")

/-- `AfterValidatorRemoved`: the key relation goes, the signing info stays. -/
def afterValidatorRemoved (address : A) : StateT (State A ε) (Except Panic) Unit :=
  modify fun t => { t with store := t.store.deleteAddrPubkeyRelation address }

/-- The staking hooks of the application: the other modules' hooks, then the slashing hooks. -/
def appHooks (other : StakingHooks A ε) : StakingHooks A (State A ε) where
  afterValidatorCreated ctx st valAddr := do
    onOther (other.afterValidatorCreated ctx st valAddr)
    afterValidatorCreated st valAddr
  beforeValidatorModified ctx st valAddr := onOther (other.beforeValidatorModified ctx st valAddr)
  afterValidatorRemoved ctx st consAddr valAddr := do
    onOther (other.afterValidatorRemoved ctx st consAddr valAddr)
    afterValidatorRemoved consAddr
  afterValidatorBonded ctx st consAddr valAddr := do
    onOther (other.afterValidatorBonded ctx st consAddr valAddr)
    afterValidatorBonded ctx consAddr
  afterValidatorBeginUnbonding ctx st consAddr valAddr :=
    onOther (other.afterValidatorBeginUnbonding ctx st consAddr valAddr)
  beforeDelegationCreated ctx st delAddr valAddr :=
    onOther (other.beforeDelegationCreated ctx st delAddr valAddr)
  beforeDelegationSharesModified ctx st delAddr valAddr :=
    onOther (other.beforeDelegationSharesModified ctx st delAddr valAddr)
  beforeDelegationRemoved ctx st delAddr valAddr :=
    onOther (other.beforeDelegationRemoved ctx st delAddr valAddr)
  afterDelegationModified ctx st delAddr valAddr :=
    onOther (other.afterDelegationModified ctx st delAddr valAddr)
  beforeValidatorSlashed ctx st valAddr fraction :=
    onOther (other.beforeValidatorSlashed ctx st valAddr fraction)

/-- The staking keeper of the application: the bank keeper on the modules beyond slashing, and
`appHooks`. -/
def appKeeper (bank : BankKeeper A ε) (other : StakingHooks A ε) : Staking.Keeper A (State A ε) where
  bankKeeper :=
    ⟨fun ctx addr denom amount => onOther (bank.delegateCoins ctx addr denom amount),
     fun ctx addr denom amount => onOther (bank.undelegateCoins ctx addr denom amount)⟩
  hooks := appHooks other

/-! ### What the application's hooks do to the slashing state -/

/-- What the staking keeper of the application may do to the slashing state: the parameters and the
bit arrays stay, and so does every signing info that exists. -/
structure StoreFrame (t t' : State A ε) : Prop where
  params : t'.store.params = t.store.params
  signingInfo {a : A} {info : ValidatorSigningInfo} :
    t.store.getValidatorSigningInfo a = some info → t'.store.getValidatorSigningInfo a = some info
  missedBlockBitArray (a : A) (i : Int) :
    t'.store.getValidatorMissedBlockBitArray a i = t.store.getValidatorMissedBlockBitArray a i

instance : Std.Refl (StoreFrame (A := A) (ε := ε)) := ⟨fun _ => ⟨rfl, id, fun _ _ => rfl⟩⟩

instance : IsTrans (State A ε) StoreFrame :=
  ⟨fun _ _ _ h₁ h₂ => ⟨h₂.params.trans h₁.params, fun h => h₂.signingInfo (h₁.signingInfo h),
    fun a i => (h₂.missedBlockBitArray a i).trans (h₁.missedBlockBitArray a i)⟩⟩

section Hooks

open StateExcept

/-- A store that differs in its key relation alone. -/
theorem storeFrame_of_store {t : State A ε} {st : Store A} (hparams : st.params = t.store.params)
    (hinfos : st.signingInfos = t.store.signingInfos)
    (hbits : st.missedBlockBitArray = t.store.missedBlockBitArray) :
    StoreFrame t { t with store := st } :=
  ⟨hparams, fun h => by rwa [Store.getValidatorSigningInfo, hinfos],
    fun a i => by rw [Store.getValidatorMissedBlockBitArray, hbits]; rfl⟩

theorem storeFrame_onOther {α : Type} (f : StateT ε (Except Panic) α) :
    Guarantees StoreFrame (onOther (A := A) f) := by
  intro t a t' h
  obtain ⟨rest, -, rfl⟩ := onOther_eq_ok.1 h
  exact ⟨rfl, id, fun _ _ => rfl⟩

theorem storeFrame_afterValidatorBonded (ctx : Ctx) (address : A) :
    Guarantees StoreFrame (afterValidatorBonded (ε := ε) ctx address) := by
  intro t u t' h
  rw [afterValidatorBonded, modify_eq_ok] at h
  subst h
  split
  · exact Std.Refl.refl t
  · -- a signing info is created only where there is none
    rename_i hnone
    refine ⟨rfl, fun {b} {info} hb => ?_, fun _ _ => rfl⟩
    have hne : b ≠ address := fun hba => by rw [hba, hnone] at hb; cases hb
    simpa [hne] using hb

theorem storeFrame_afterValidatorCreated (st : Staking.Store A) (valAddr : A) :
    Guarantees StoreFrame (afterValidatorCreated (ε := ε) st valAddr) := by
  unfold afterValidatorCreated
  split
  · intro t u t' h
    rw [modify_eq_ok.1 h]
    exact storeFrame_of_store rfl rfl rfl
  · exact Guarantees.throw _

theorem storeFrame_afterValidatorRemoved (address : A) :
    Guarantees StoreFrame (afterValidatorRemoved (ε := ε) address) := by
  intro t u t' h
  rw [afterValidatorRemoved, modify_eq_ok] at h
  subst h
  exact storeFrame_of_store rfl rfl rfl

/-- The staking keeper of the application changes the slashing state only within `StoreFrame`. -/
theorem appKeeper_keepsRest (bank : BankKeeper A ε) (other : StakingHooks A ε) :
    Staking.KeepsRest StoreFrame (appKeeper bank other) where
  afterValidatorCreated _ st valAddr :=
    (storeFrame_onOther _).bind fun _ => storeFrame_afterValidatorCreated st valAddr
  beforeValidatorModified _ _ _ := storeFrame_onOther _
  afterValidatorRemoved _ _ consAddr _ :=
    (storeFrame_onOther _).bind fun _ => storeFrame_afterValidatorRemoved consAddr
  afterValidatorBonded ctx _ consAddr _ :=
    (storeFrame_onOther _).bind fun _ => storeFrame_afterValidatorBonded ctx consAddr
  afterValidatorBeginUnbonding _ _ _ _ := storeFrame_onOther _
  beforeDelegationCreated _ _ _ _ := storeFrame_onOther _
  beforeDelegationSharesModified _ _ _ _ := storeFrame_onOther _
  beforeDelegationRemoved _ _ _ _ := storeFrame_onOther _
  afterDelegationModified _ _ _ _ := storeFrame_onOther _
  beforeValidatorSlashed _ _ _ _ := storeFrame_onOther _
  delegateCoins _ _ _ _ := storeFrame_onOther _
  undelegateCoins _ _ _ _ := storeFrame_onOther _

end Hooks

/-! ### The keeper -/

variable (sk : Staking.Keeper A (State A ε))

/-- The block's bit and the counter, in `handleValidatorSignature`: the bit is written, and the
counter moves, only when the bit changes. -/
def recordMissed (consAddr : A) (signInfo : ValidatorSigningInfo) (index : Int) (missed : Bool) :
    Staking.KeeperM A (State A ε) ValidatorSigningInfo := do
  let previous := (← getSlashingStore).getValidatorMissedBlockBitArray consAddr index
  if !previous && missed then
    modifySlashingStore (·.setValidatorMissedBlockBitArray consAddr index true)
    pure { signInfo with missedBlocksCounter := signInfo.missedBlocksCounter + 1 }
  else if previous && !missed then
    modifySlashingStore (·.setValidatorMissedBlockBitArray consAddr index false)
    pure { signInfo with missedBlocksCounter := signInfo.missedBlocksCounter - 1 }
  else pure signInfo

/-- The punishment for downtime, in `handleValidatorSignature`: a validator found and not jailed is
slashed at the height of the last commit and jailed, and its window starts over. -/
def punishDowntime (ctx : Ctx) (consAddr : A) (power : Int) (signInfo : ValidatorSigningInfo) :
    Staking.KeeperM A (State A ε) ValidatorSigningInfo := do
  match ← Staking.Keeper.getValidatorByConsAddr consAddr with
  | some validator =>
    if !validator.jailed then
      let distributionHeight := ctx.height - validatorUpdateDelay - 1
      sk.slash ctx consAddr distributionHeight power (← getParams).slashFractionDowntime
      Staking.Keeper.jail consAddr
      let jailedUntil := ctx.time + (← getParams).downtimeJailDuration
      modifySlashingStore (·.clearValidatorMissedBlockBitArray consAddr)
      pure { signInfo with jailedUntil := jailedUntil, missedBlocksCounter := 0, indexOffset := 0 }
    else pure signInfo
  | none => pure signInfo

/-- `handleValidatorSignature`, run once for each validator of the last commit. -/
def handleValidatorSignature (ctx : Ctx) (addr : A) (power : Int) (signed : Bool) :
    Staking.KeeperM A (State A ε) Unit := do
  let height := ctx.height
  let consAddr := addr
  let some _ := (← getSlashingStore).getPubkey addr
    | throw (.other "Validator consensus-address not found")
  let some signInfo := (← getSlashingStore).getValidatorSigningInfo consAddr
    | throw (.other "Expected signing info for validator but not found")
  let window := (← getParams).signedBlocksWindow
  (if window = 0 then throw (.other "runtime error: integer divide by zero") else pure ())
  -- the block's slot in the ring of `window` slots
  let index := signInfo.indexOffset.tmod window
  let signInfo := { signInfo with indexOffset := signInfo.indexOffset + 1 }
  let missed := !signed
  let signInfo ← recordMissed consAddr signInfo index missed
  -- the log line of a missed block computes `MinSignedPerWindow`
  (if missed then do
      let _ ← getMinSignedPerWindow
      pure ()
    else pure ())
  let minHeight := signInfo.startHeight + (← getParams).signedBlocksWindow
  let maxMissed := (← getParams).signedBlocksWindow - (← getMinSignedPerWindow)
  let signInfo ← (if minHeight < height ∧ maxMissed < signInfo.missedBlocksCounter then
      punishDowntime sk ctx consAddr power signInfo
    else pure signInfo)
  modifySlashingStore (·.setValidatorSigningInfo consAddr signInfo)

/-- `handleDoubleSign`: evidence of a double sign at `infractionHeight`, of the time `timestamp`. -/
def handleDoubleSign (ctx : Ctx) (addr : A) (infractionHeight timestamp power : Int) :
    Staking.KeeperM A (State A ε) Unit := do
  let age := timeSub ctx.time timestamp
  let consAddr := addr
  -- evidence that cannot be handled is ignored
  let some _ := (← getSlashingStore).getPubkey addr | return
  if (← getParams).maxEvidenceAge < age then return
  let some validator ← Staking.Keeper.getValidatorByConsAddr consAddr | return
  if validator.status = .unbonded then return
  let some signInfo := (← getSlashingStore).getValidatorSigningInfo consAddr
    | throw (.other "Expected signing info for validator but not found")
  if signInfo.tombstoned then return
  let distributionHeight := infractionHeight - validatorUpdateDelay
  sk.slash ctx consAddr distributionHeight power (← getParams).slashFractionDoubleSign
  if !validator.jailed then Staking.Keeper.jail consAddr
  let signInfo := { signInfo with tombstoned := true, jailedUntil := doubleSignJailEndTime }
  modifySlashingStore (·.setValidatorSigningInfo consAddr signInfo)

/-- `handleMsgUnjail`.  The account of the self-delegation has the operator's address. -/
def handleMsgUnjail (ctx : Ctx) (validatorAddr : A) :
    Staking.KeeperM A (State A ε) (Except Error Unit) := do
  let some validator ← Staking.Keeper.getValidator validatorAddr
    | return .error errNoValidatorForAddress
  let some selfDel ← Staking.Keeper.getDelegation validatorAddr validatorAddr
    | return .error errMissingSelfDelegation
  let worth ← liftM (validator.shareTokens selfDel.shares)
  let selfTokens ← liftM worth.truncateInt
  if selfTokens < validator.minSelfDelegation then return .error errSelfDelegationTooLowToUnjail
  if !validator.jailed then return .error errValidatorNotJailed
  let consAddr := validator.consAddress
  let some info := (← getSlashingStore).getValidatorSigningInfo consAddr
    | return .error errNoValidatorForAddress
  if info.tombstoned then return .error errValidatorJailed
  if ctx.time < info.jailedUntil then return .error errValidatorJailed
  Staking.Keeper.unjail consAddr
  return .ok ()

/-- `abci.VoteInfo` of the last commit. -/
structure VoteInfo (A : Type) where
  address : A
  power : Int
  signedLastBlock : Bool

/-- `abci.Evidence`. -/
structure Evidence (A : Type) where
  type : String
  address : A
  height : Int
  time : Int
  power : Int

/-- `BeginBlocker`: the signatures of the last commit, then the evidence; evidence of another type
than a duplicate vote is ignored. -/
def beginBlocker (ctx : Ctx) (votes : List (VoteInfo A)) (byzantineValidators : List (Evidence A)) :
    Staking.KeeperM A (State A ε) Unit := do
  votes.forM fun voteInfo =>
    handleValidatorSignature sk ctx voteInfo.address voteInfo.power voteInfo.signedLastBlock
  byzantineValidators.forM fun evidence =>
    if evidence.type = abciEvidenceTypeDuplicateVote then
      handleDoubleSign sk ctx evidence.address evidence.height evidence.time evidence.power
    else pure ()

/-! ### Runs -/

section Runs

open StateExcept

variable {s s' : Staking.State A (State A ε)}

/-- `recordMissed` puts the block's flag in its slot, as the getter reads the bit array, and moves the
counter by the change of the bit. -/
theorem recordMissed_eq_ok {consAddr : A} {info info' : ValidatorSigningInfo} {index : Int}
    {missed : Bool} (h : recordMissed consAddr info index missed s = .ok (info', s')) :
    info' = { info with missedBlocksCounter := info.missedBlocksCounter + (if missed then 1 else 0) -
        (if s.rest.store.getValidatorMissedBlockBitArray consAddr index then 1 else 0) } ∧
      ∃ st, s' = { s with rest := { s.rest with store := st } } ∧ st.params = s.rest.store.params ∧
        (∀ b, st.getValidatorSigningInfo b = s.rest.store.getValidatorSigningInfo b) ∧
        ∀ b j, st.getValidatorMissedBlockBitArray b j =
          if b = consAddr ∧ j = index then missed else s.rest.store.getValidatorMissedBlockBitArray b j := by
  unfold recordMissed at h
  obtain ⟨st, s₁, h₁, h⟩ := bind_eq_ok.1 h
  obtain ⟨rfl, rfl⟩ := getSlashingStore_eq_ok.1 h₁
  cases hprev : s.rest.store.getValidatorMissedBlockBitArray consAddr index <;> cases missed <;>
    simp only [hprev, Bool.not_false, Bool.not_true, Bool.and_self, Bool.and_false, Bool.false_and,
      ite_true, ite_false, Bool.false_eq_true] at h
  case false.false =>
    obtain ⟨rfl, rfl⟩ := pure_eq_ok.1 h
    refine ⟨by simp, _, rfl, rfl, fun _ => rfl, fun b j => ?_⟩
    split
    · rename_i hbj
      rw [hbj.1, hbj.2, hprev]
    · rfl
  case true.true =>
    obtain ⟨rfl, rfl⟩ := pure_eq_ok.1 h
    refine ⟨by simp, _, rfl, rfl, fun _ => rfl, fun b j => ?_⟩
    split
    · rename_i hbj
      rw [hbj.1, hbj.2, hprev]
    · rfl
  case false.true =>
    obtain ⟨_, s₂, h₂, h⟩ := bind_eq_ok.1 h
    rw [modifySlashingStore_eq_ok] at h₂
    obtain ⟨rfl, rfl⟩ := pure_eq_ok.1 h
    exact ⟨by simp, _, h₂, rfl, fun _ => rfl, fun b j => by simp⟩
  case true.false =>
    obtain ⟨_, s₂, h₂, h⟩ := bind_eq_ok.1 h
    rw [modifySlashingStore_eq_ok] at h₂
    obtain ⟨rfl, rfl⟩ := pure_eq_ok.1 h
    exact ⟨by simp, _, h₂, rfl, fun _ => rfl, fun b j => by simp⟩

/-- `punishDowntime` slashes and jails a validator that is found and not jailed, and starts its
window over; otherwise it changes nothing. -/
theorem punishDowntime_eq_ok {ctx : Ctx} {consAddr : A} {power : Int}
    {info info' : ValidatorSigningInfo} (h : punishDowntime sk ctx consAddr power info s = .ok (info', s')) :
    (∃ v, (s.store.validatorsByConsAddr.lookup consAddr).bind s.store.validators.lookup = some v ∧
        v.jailed = false ∧ ∃ s₁ s₂,
        sk.slash ctx consAddr (ctx.height - validatorUpdateDelay - 1) power
          s.rest.store.params.slashFractionDowntime s = .ok ((), s₁) ∧
        Staking.Keeper.jail consAddr s₁ = .ok ((), s₂) ∧
        s' = { s₂ with rest := { s₂.rest with
          store := s₂.rest.store.clearValidatorMissedBlockBitArray consAddr } } ∧
        info' = { info with jailedUntil := ctx.time + s₂.rest.store.params.downtimeJailDuration,
                            missedBlocksCounter := 0, indexOffset := 0 }) ∨
      ((∀ v, (s.store.validatorsByConsAddr.lookup consAddr).bind s.store.validators.lookup = some v →
        v.jailed = true) ∧ s' = s ∧ info' = info) := by
  unfold punishDowntime at h
  obtain ⟨found, s₁, h₁, h⟩ := bind_eq_ok.1 h
  obtain ⟨hfound, rfl⟩ := Staking.Keeper.getValidatorByConsAddr_eq_ok.1 h₁
  cases found with
  | none =>
    obtain ⟨rfl, rfl⟩ := pure_eq_ok.1 h
    refine .inr ⟨fun v hv => ?_, rfl, rfl⟩
    rw [hfound] at hv
    cases hv
  | some v =>
    dsimp only at h
    split at h
    · -- downtime confirmed: slash, jail, and start the window over
      rename_i hjailed
      obtain ⟨params, s₂, h₂, h⟩ := bind_eq_ok.1 h
      obtain ⟨rfl, rfl⟩ := getParams_eq_ok.1 h₂
      obtain ⟨_, s₃, h₃, h⟩ := bind_eq_ok.1 h
      obtain ⟨_, s₄, h₄, h⟩ := bind_eq_ok.1 h
      obtain ⟨params', s₅, h₅, h⟩ := bind_eq_ok.1 h
      obtain ⟨rfl, rfl⟩ := getParams_eq_ok.1 h₅
      obtain ⟨_, s₆, h₆, h⟩ := bind_eq_ok.1 h
      rw [modifySlashingStore_eq_ok] at h₆
      obtain ⟨rfl, rfl⟩ := pure_eq_ok.1 h
      exact .inl ⟨v, hfound, by simpa using hjailed, s₃, s₄, h₃, h₄, h₆, rfl⟩
    · rename_i hjailed
      obtain ⟨rfl, rfl⟩ := pure_eq_ok.1 h
      refine .inr ⟨fun w hw => ?_, rfl, rfl⟩
      rw [hfound, Option.some.injEq] at hw
      subst hw
      simpa using hjailed

/-- A run of `handleValidatorSignature`: the signing info is found, the window is not zero, and
`MinSignedPerWindow` computes; the block is recorded in its slot, the window's misses are checked,
and the signing info is written back. -/
theorem handleValidatorSignature_eq_ok {ctx : Ctx} {a : A} {power : Int} {signed : Bool}
    (h : handleValidatorSignature sk ctx a power signed s = .ok ((), s')) :
    ∃ info minSigned, s.rest.store.getValidatorSigningInfo a = some info ∧
      s.rest.store.params.signedBlocksWindow ≠ 0 ∧ s.rest.store.minSignedPerWindow = .ok minSigned ∧
      ∃ info₁ s₁, recordMissed a { info with indexOffset := info.indexOffset + 1 }
          (info.indexOffset.tmod s.rest.store.params.signedBlocksWindow) (!signed) s = .ok (info₁, s₁) ∧
        ∃ info₂ s₂, (if info₁.startHeight + s.rest.store.params.signedBlocksWindow < ctx.height ∧
              s.rest.store.params.signedBlocksWindow - minSigned < info₁.missedBlocksCounter then
            punishDowntime sk ctx a power info₁ s₁ = .ok (info₂, s₂)
          else info₂ = info₁ ∧ s₂ = s₁) ∧
          s' = { s₂ with rest := { s₂.rest with
            store := s₂.rest.store.setValidatorSigningInfo a info₂ } } := by
  unfold handleValidatorSignature at h
  obtain ⟨st, s₁, h₁, h⟩ := bind_eq_ok.1 h
  obtain ⟨rfl, rfl⟩ := getSlashingStore_eq_ok.1 h₁
  cases hpubkey : s.rest.store.getPubkey a with
  | none =>
    rw [hpubkey] at h
    exact absurd h throw_ne_ok
  | some _ =>
  rw [hpubkey] at h
  obtain ⟨st, s₁, h₁, h⟩ := bind_eq_ok.1 h
  obtain ⟨rfl, rfl⟩ := getSlashingStore_eq_ok.1 h₁
  cases hinfo : s.rest.store.getValidatorSigningInfo a with
  | none =>
    rw [hinfo] at h
    exact absurd h throw_ne_ok
  | some info =>
  rw [hinfo] at h
  obtain ⟨params, s₁, h₁, h⟩ := bind_eq_ok.1 h
  obtain ⟨rfl, rfl⟩ := getParams_eq_ok.1 h₁
  obtain ⟨_, s₁, h₁, h⟩ := bind_eq_ok.1 h
  have hwindow : s.rest.store.params.signedBlocksWindow ≠ 0 := by
    intro hzero
    rw [if_pos hzero] at h₁
    exact throw_ne_ok h₁
  rw [if_neg hwindow] at h₁
  obtain ⟨-, rfl⟩ := pure_eq_ok.1 h₁
  obtain ⟨info₁, s₁, hrecord, h⟩ := bind_eq_ok.1 h
  obtain ⟨-, st₁, rfl, hparams, -, -⟩ := recordMissed_eq_ok hrecord
  -- the log line of a missed block computes `MinSignedPerWindow`, and so does the threshold
  obtain ⟨_, s₂, h₂, h⟩ := bind_eq_ok.1 h
  obtain ⟨params, s₃, h₃, h⟩ := bind_eq_ok.1 h
  obtain ⟨rfl, rfl⟩ := getParams_eq_ok.1 h₃
  obtain ⟨params, s₃, h₃, h⟩ := bind_eq_ok.1 h
  obtain ⟨rfl, rfl⟩ := getParams_eq_ok.1 h₃
  obtain ⟨minSigned, s₃, h₃, h⟩ := bind_eq_ok.1 h
  obtain ⟨hmin, rfl⟩ := getMinSignedPerWindow_eq_ok.1 h₃
  have hs₂ : s₂ = { s with rest := { s.rest with store := st₁ } } := by
    split at h₂
    · obtain ⟨_, s₄, h₄, h₂⟩ := bind_eq_ok.1 h₂
      obtain ⟨-, rfl⟩ := getMinSignedPerWindow_eq_ok.1 h₄
      exact (pure_eq_ok.1 h₂).2.symm
    · exact (pure_eq_ok.1 h₂).2.symm
  subst hs₂
  obtain ⟨info₂, s₄, h₄, h⟩ := bind_eq_ok.1 h
  refine ⟨info, minSigned, rfl, hwindow, (Store.minSignedPerWindow_of_params hparams).symm.trans hmin,
    info₁, _, hrecord, info₂, s₄, ?_, modifySlashingStore_eq_ok.1 h⟩
  dsimp only at h₄
  rw [hparams] at h₄
  split
  · rename_i hcond
    rwa [if_pos hcond] at h₄
  · rename_i hcond
    rw [if_neg hcond] at h₄
    obtain ⟨rfl, rfl⟩ := pure_eq_ok.1 h₄
    exact ⟨rfl, rfl⟩

end Runs

end CosmosSdk.Slashing
