import CosmosSdk.Types.Handler

/-!
# Running a transaction

`BaseApp.runTx` and `BaseApp.runMsgs` (`baseapp/baseapp.go`).  A transaction's messages are checked
(`validateBasicTxMsgs`), its ante handler runs on a cache-wrapped copy of the multistore that is written
back unless the handler aborts, and its messages then run one after another on a second cache that is
written back only if every one of them succeeds.  A panic anywhere is recovered into an error result; in
`DeliverTx` the transaction's gas is charged to the block gas meter on the way out, which may panic too.

The handlers are programs over the multistore (`Prog`).  Gas is not metered here: what `runTx` reads
from the gas meters is the environment `TxEnv`, and running out of gas is a handler's panic.

The abstract layer is `runTx` on plain maps with the caches replaced by all-or-nothing updates
(`anteOnMaps`, `msgsOnMaps`).

* `runTxOn_simulates`: over any store that implements plain maps, `runTx` returns what the all-or-nothing
  semantics returns and leaves the maps it leaves, in every mode.
* `runTx_deliver_atomic`: in `DeliverTx` the deliver state afterwards is the state before, or that state
  with exactly the ante handler's writes, or with the ante handler's and all messages' writes.
-/

namespace CosmosSdk.Baseapp

open CacheMulti (cacheMultiStore)

/-- `runTxMode`. -/
inductive RunTxMode
  | check
  | simulate
  | deliver
  deriving DecidableEq

/-- The methods of `sdk.Msg` and `sdk.Tx` that `runTx` calls. -/
structure MsgMethods (M T : Type) where
  route : M → String
  msgType : M → String
  validateBasic : M → Option Error
  getMsgs : T → List M

/-- The parts of `BaseApp` that `runTx` reads: the ante handler, called with the `simulate` flag, and
the router's routes. -/
structure BaseApp (S K V M T : Type) where
  anteHandler : Option (T → Bool → Prog S K V (Result × Bool))
  router : String → Option (M → Prog S K V Result)

/-- What `runTx` reads besides the multistore: whether the block gas meter is out of gas, what charging
the transaction's gas to it raises, the transaction gas meter's final reading, and the stack trace
printed for a recovered panic. -/
structure TxEnv where
  blockOutOfGas : Bool
  blockGasPanic : Option Panic
  gasUsed : Nat
  stack : String

/-- The multistores of `app.checkState` and `app.deliverState`. -/
structure AppState (S σ : Type) where
  checkState : S → σ
  deliverState : S → σ

/-- `validateBasicTxMsgs`. -/
def validateBasicTxMsgs {M T : Type} (mm : MsgMethods M T) (msgs : List M) : Option Error :=
  if msgs.isEmpty then
    some (errUnknownRequest "Tx.GetMsgs() must return at least one message in list")
  else msgs.findSome? mm.validateBasic

/-- `TagAction`. -/
def tagAction : String := "action"

/-- What `runMsgs` gathers: the indexed message logs, the data and tags, and the code and codespace of
the message that failed. -/
structure MsgsAcc where
  idxlogs : List (Nat × Bool × ResultLog)
  data : List UInt8
  tags : Tags
  code : Nat
  codespace : String

/-- The zero values `runMsgs` starts from. -/
def MsgsAcc.empty : MsgsAcc := ⟨[], [], [], 0, ""⟩

/-- The result `runMsgs` builds after its loop. -/
def MsgsAcc.result (acc : MsgsAcc) (gasUsed : Nat) : Result :=
  { code := acc.code, codespace := acc.codespace, data := acc.data, log := .msgs acc.idxlogs,
    gasWanted := 0, gasUsed := gasUsed, tags := acc.tags }

/-- How the ante handler ends: it panics, it aborts with a result, or it passes with `GasWanted`. -/
inductive AnteOutcome
  | panic (p : Panic)
  | abort (result : Result)
  | pass (gasWanted : Nat)

section Code

variable {S σ ι K V M T : Type} [DecidableEq S] [LinearOrder K]
variable (st : KVStore σ ι K V) (b : st.cursor.Bounded) (mm : MsgMethods M T)
  (router : String → Option (M → Prog S K V Result)) (mode : RunTxMode) (gasUsed : Nat)

/-- One message's handler, which `CheckTx` skips, leaving the zero result. -/
def handleMsg (handler : M → Prog S K V Result) (msg : M) (ms : S → σ) :
    Except Panic Result × (S → σ) :=
  if mode = .check then (.ok Result.zero, ms) else (handler msg).run st b ms

/-- The loop of `runMsgs` from message `msgIdx` on; `gasUsed` is the gas meter's reading when it
returns. -/
def runMsgsFrom : Nat → List M → MsgsAcc → (S → σ) → Except Panic Result × (S → σ)
  | _, [], acc, ms => (.ok (acc.result gasUsed), ms)
  | msgIdx, msg :: msgs, acc, ms =>
    match router (mm.route msg) with
    | none => (.ok (errUnknownRequest ("Unrecognized Msg type: " ++ mm.route msg)).result, ms)
    | some handler =>
      match handleMsg st b mode handler msg ms with
      | (.error p, ms) => (.error p, ms)
      | (.ok msgResult, ms) =>
        let acc := { acc with data := acc.data ++ msgResult.data,
                              tags := acc.tags ++ (tagAction, mm.msgType msg) :: msgResult.tags }
        if msgResult.isOK then
          runMsgsFrom (msgIdx + 1) msgs
            { acc with idxlogs := acc.idxlogs ++ [(msgIdx, true, msgResult.log)] } ms
        else
          -- stop at the first failed message
          (.ok ({ acc with idxlogs := acc.idxlogs ++ [(msgIdx, false, msgResult.log)],
                           code := msgResult.code, codespace := msgResult.codespace }.result gasUsed),
            ms)

/-- `runMsgs`. -/
def runMsgs (msgs : List M) (ms : S → σ) : Except Panic Result × (S → σ) :=
  runMsgsFrom st b mm router mode gasUsed 0 msgs MsgsAcc.empty ms

/-- The ante handler's part of `runTx`: it runs on a cache of the multistore, which is written back
unless it aborts. -/
def runAnte (app : BaseApp S K V M T) (tx : T) (ms : S → σ) : AnteOutcome × (S → σ) :=
  match app.anteHandler with
  | none => (.pass 0, ms)
  | some anteHandler =>
    match (anteHandler tx (mode == .simulate)).run (CacheKV.cacheStore st) (CacheKV.cacheBounded b)
        (cacheMultiStore ms) with
    | (.error p, _) => (.panic p, ms)
    | (.ok (result, abort), msCache) =>
      if abort then (.abort result, ms) else (.pass result.gasWanted, CacheMulti.write st msCache)

/-- The messages' part of `runTx`: `runMsgs` on a cache of the multistore, written back only if the
result is OK, and never when simulating. -/
def runMsgsCached (msgs : List M) (ms : S → σ) : Except Panic Result × (S → σ) :=
  match runMsgs (CacheKV.cacheStore st) (CacheKV.cacheBounded b) mm router mode gasUsed msgs
      (cacheMultiStore ms) with
  | (.error p, _) => (.error p, ms)
  | (.ok result, msCache) =>
    if mode = .simulate then (.ok result, ms)
    else if result.isOK then (.ok result, CacheMulti.write st msCache)
    else (.ok result, ms)

end Code

section Phases

variable {S σ M T : Type}

/-- The control flow of `runTx` between `validateBasicTxMsgs` and the deferred functions, over the
ante handler's phase and the messages' phase: the outcome, `GasWanted` and the multistore.  In
`CheckTx` the result after a passing ante handler is the zero result, since the ante handler's result
is bound to a shadowing variable. -/
def runTxPhases (anteStep : (S → σ) → AnteOutcome × (S → σ))
    (msgsStep : (S → σ) → Except Panic Result × (S → σ)) (mm : MsgMethods M T) (mode : RunTxMode)
    (tx : T) (ms : S → σ) : (Except Panic Result × Nat) × (S → σ) :=
  match validateBasicTxMsgs mm (mm.getMsgs tx) with
  | some err => ((.ok err.result, 0), ms)
  | none =>
    match anteStep ms with
    | (.panic p, ms) => ((.error p, 0), ms)
    | (.abort result, ms) => ((.ok result, result.gasWanted), ms)
    | (.pass gasWanted, ms) =>
      if mode = .check then ((.ok Result.zero, gasWanted), ms)
      else
        match msgsStep ms with
        | (.error p, ms) => ((.error p, gasWanted), ms)
        | (.ok result, ms) => ((.ok { result with gasWanted := gasWanted }, gasWanted), ms)

/-- The deferred functions of `runTx`: in `DeliverTx` the block gas charge runs first, and a panic it
raises replaces the one in flight; the recovery turns a panic into an error result; `GasWanted` and
`GasUsed` are set. -/
def recoverTx (mode : RunTxMode) (env : TxEnv) (gasWanted : Nat) (out : Except Panic Result) :
    Result :=
  let out : Except Panic Result :=
    match mode, env.blockGasPanic with
    | .deliver, some p => .error p
    | _, _ => out
  let result : Result :=
    match out with
    | .ok result => result
    | .error (.outOfGas descriptor) =>
      (errOutOfGas ("out of gas in location: " ++ descriptor ++ "; gasWanted: " ++
        toString gasWanted ++ ", gasUsed: " ++ toString env.gasUsed)).result
    | .error p => (errInternal ("recovered: " ++ p.render ++ "\nstack:\n" ++ env.stack)).result
  { result with gasWanted := gasWanted, gasUsed := env.gasUsed }

/-- `runTx` on the multistore of the transaction's context, given its body. -/
def runTxWith (body : (S → σ) → (Except Panic Result × Nat) × (S → σ)) (mode : RunTxMode)
    (env : TxEnv) (ms : S → σ) : Result × (S → σ) :=
  -- only run the tx if there is block gas remaining
  if mode = .deliver ∧ env.blockOutOfGas = true then
    ((errOutOfGas "no block gas left to run tx").result, ms)
  else
    match body ms with
    | ((out, gasWanted), ms) => (recoverTx mode env gasWanted out, ms)

end Phases

section Code

variable {S σ ι K V M T : Type} [DecidableEq S] [LinearOrder K]

/-- `runTx` on the multistore `ms` of the transaction's context. -/
def runTxOn (st : KVStore σ ι K V) (b : st.cursor.Bounded) (mm : MsgMethods M T)
    (app : BaseApp S K V M T) (mode : RunTxMode) (env : TxEnv) (tx : T) (ms : S → σ) :
    Result × (S → σ) :=
  runTxWith (runTxPhases (runAnte st b mode app tx)
    (runMsgsCached st b mm app.router mode env.gasUsed (mm.getMsgs tx)) mm mode tx) mode env ms

/-- `runTx`: `CheckTx` and simulation work on the check state, `DeliverTx` on the deliver state; a
simulation runs on a cache of the check state that is never written. -/
def runTx (p : KVStore σ ι K V) (b : p.cursor.Bounded) (mm : MsgMethods M T)
    (app : BaseApp S K V M T) (mode : RunTxMode) (env : TxEnv) (tx : T) (state : AppState S σ) :
    Result × AppState S σ :=
  match mode with
  | .check =>
    match runTxOn p b mm app .check env tx state.checkState with
    | (result, ms) => (result, { state with checkState := ms })
  | .simulate =>
    ((runTxOn (CacheKV.cacheStore p) (CacheKV.cacheBounded b) mm app .simulate env tx
      (cacheMultiStore state.checkState)).1, state)
  | .deliver =>
    match runTxOn p b mm app .deliver env tx state.deliverState with
    | (result, ms) => (result, { state with deliverState := ms })

end Code

/-! ### All or nothing, on plain maps -/

section Maps

variable {S K V M T : Type} [DecidableEq S] [LinearOrder K]

/-- The ante handler on plain maps: its writes are kept unless it panics or aborts. -/
def anteOnMaps (app : BaseApp S K V M T) (mode : RunTxMode) (tx : T) (Ms : S → MemDB K V) :
    AnteOutcome × (S → MemDB K V) :=
  match app.anteHandler with
  | none => (.pass 0, Ms)
  | some anteHandler =>
    match (anteHandler tx (mode == .simulate)).run memDB memDBBounded Ms with
    | (.error p, _) => (.panic p, Ms)
    | (.ok (result, abort), Ms') => if abort then (.abort result, Ms) else (.pass result.gasWanted, Ms')

/-- The messages on plain maps: their writes are kept only if all of them succeed, outside simulation. -/
def msgsOnMaps (mm : MsgMethods M T) (router : String → Option (M → Prog S K V Result))
    (mode : RunTxMode) (gasUsed : Nat) (msgs : List M) (Ms : S → MemDB K V) :
    Except Panic Result × (S → MemDB K V) :=
  match runMsgs memDB memDBBounded mm router mode gasUsed msgs Ms with
  | (.error p, _) => (.error p, Ms)
  | (.ok result, Ms') =>
    if mode = .simulate then (.ok result, Ms)
    else if result.isOK then (.ok result, Ms') else (.ok result, Ms)

/-- `runTx` with all-or-nothing phases on plain maps. -/
def atomicTxOn (mm : MsgMethods M T) (app : BaseApp S K V M T) (mode : RunTxMode) (env : TxEnv)
    (tx : T) (Ms : S → MemDB K V) : Result × (S → MemDB K V) :=
  runTxWith (runTxPhases (anteOnMaps app mode tx)
    (msgsOnMaps mm app.router mode env.gasUsed (mm.getMsgs tx)) mm mode tx) mode env Ms

end Maps

/-! ### Caches make the phases all or nothing -/

section Refinement

variable {S σ ι K V M T : Type} [DecidableEq S] [LinearOrder K]
variable {st : KVStore σ ι K V} {R : σ → MemDB K V → Prop} (hp : Implements st R) (b : st.cursor.Bounded)
  (mm : MsgMethods M T) (router : String → Option (M → Prog S K V Result)) (mode : RunTxMode)
  (gasUsed : Nat)
include hp

theorem handleMsg_simulates (handler : M → Prog S K V Result) (msg : M) {ms : S → σ}
    {Ms : S → MemDB K V} (h : MultiRel R ms Ms) :
    Simulates R (handleMsg st b mode handler msg ms)
      (handleMsg memDB memDBBounded mode handler msg Ms) := by
  unfold handleMsg
  split
  · exact ⟨rfl, h⟩
  · exact Prog.run_implements hp b (handler msg) h

theorem runMsgsFrom_simulates (msgs : List M) :
    ∀ (msgIdx : Nat) (acc : MsgsAcc) {ms : S → σ} {Ms : S → MemDB K V}, MultiRel R ms Ms →
      Simulates R (runMsgsFrom st b mm router mode gasUsed msgIdx msgs acc ms)
        (runMsgsFrom memDB memDBBounded mm router mode gasUsed msgIdx msgs acc Ms) := by
  induction msgs with
  | nil =>
    intro msgIdx acc ms Ms h
    exact ⟨rfl, h⟩
  | cons msg msgs ih =>
    intro msgIdx acc ms Ms h
    simp only [runMsgsFrom]
    cases router (mm.route msg) with
    | none => exact ⟨rfl, h⟩
    | some handler =>
      dsimp only
      obtain ⟨out, ms', Ms', hx, hy, hrel⟩ := (handleMsg_simulates hp b mode handler msg h).exists_eq
      rw [hx, hy]
      cases out with
      | error p => exact ⟨rfl, hrel⟩
      | ok msgResult =>
        dsimp only
        split
        · exact ih _ _ hrel
        · exact ⟨rfl, hrel⟩

theorem runMsgs_simulates (msgs : List M) {ms : S → σ} {Ms : S → MemDB K V}
    (h : MultiRel R ms Ms) :
    Simulates R (runMsgs st b mm router mode gasUsed msgs ms)
      (runMsgs memDB memDBBounded mm router mode gasUsed msgs Ms) :=
  runMsgsFrom_simulates hp b mm router mode gasUsed msgs 0 MsgsAcc.empty h

/-- The ante handler's run on a cache that is written back when it passes is its all-or-nothing run
on the maps. -/
theorem runAnte_simulates (app : BaseApp S K V M T) (tx : T) {ms : S → σ} {Ms : S → MemDB K V}
    (h : MultiRel R ms Ms) :
    Simulates R (runAnte st b mode app tx ms) (anteOnMaps app mode tx Ms) := by
  unfold runAnte anteOnMaps
  cases app.anteHandler with
  | none => exact ⟨rfl, h⟩
  | some anteHandler =>
    dsimp only
    obtain ⟨out, msCache, Ms', hx, hy, hrel⟩ :=
      (Prog.run_implements (CacheKV.cacheStore_implements hp) (CacheKV.cacheBounded b)
        (anteHandler tx (mode == .simulate)) (CacheMulti.multiRel_cacheMultiStore h)).exists_eq
    rw [hx, hy]
    rcases out with p | ⟨result, abort⟩
    · exact ⟨rfl, h⟩
    · cases abort
      · exact ⟨rfl, CacheMulti.MultiRel.write hp hrel⟩
      · exact ⟨rfl, h⟩

/-- The messages' run on a cache that is written back when all succeed is their all-or-nothing run on
the maps. -/
theorem runMsgsCached_simulates (msgs : List M) {ms : S → σ} {Ms : S → MemDB K V}
    (h : MultiRel R ms Ms) :
    Simulates R (runMsgsCached st b mm router mode gasUsed msgs ms)
      (msgsOnMaps mm router mode gasUsed msgs Ms) := by
  unfold runMsgsCached msgsOnMaps
  obtain ⟨out, msCache, Ms', hx, hy, hrel⟩ :=
    (runMsgs_simulates (CacheKV.cacheStore_implements hp) (CacheKV.cacheBounded b) mm router mode
      gasUsed msgs (CacheMulti.multiRel_cacheMultiStore h)).exists_eq
  rw [hx, hy]
  cases out with
  | error p => exact ⟨rfl, h⟩
  | ok result =>
    dsimp only
    split
    · exact ⟨rfl, h⟩
    · split
      · exact ⟨rfl, CacheMulti.MultiRel.write hp hrel⟩
      · exact ⟨rfl, h⟩

end Refinement

section PhaseRefinement

variable {S σ K V M T : Type} {R : σ → MemDB K V → Prop}

/-- The control flow of `runTx` keeps a simulation of its two phases. -/
theorem runTxPhases_simulates {anteStep : (S → σ) → AnteOutcome × (S → σ)}
    {anteMaps : (S → MemDB K V) → AnteOutcome × (S → MemDB K V)}
    {msgsStep : (S → σ) → Except Panic Result × (S → σ)}
    {msgsMaps : (S → MemDB K V) → Except Panic Result × (S → MemDB K V)}
    (hante : ∀ {ms Ms}, MultiRel R ms Ms → Simulates R (anteStep ms) (anteMaps Ms))
    (hmsgs : ∀ {ms Ms}, MultiRel R ms Ms → Simulates R (msgsStep ms) (msgsMaps Ms))
    (mm : MsgMethods M T) (mode : RunTxMode) (tx : T) {ms : S → σ} {Ms : S → MemDB K V}
    (h : MultiRel R ms Ms) :
    Simulates R (runTxPhases anteStep msgsStep mm mode tx ms)
      (runTxPhases anteMaps msgsMaps mm mode tx Ms) := by
  unfold runTxPhases
  cases validateBasicTxMsgs mm (mm.getMsgs tx) with
  | some err => exact ⟨rfl, h⟩
  | none =>
    dsimp only
    obtain ⟨out, ms₁, Ms₁, hx, hy, hrel⟩ := (hante h).exists_eq
    rw [hx, hy]
    cases out with
    | panic p => exact ⟨rfl, hrel⟩
    | abort result => exact ⟨rfl, hrel⟩
    | pass gasWanted =>
      dsimp only
      split
      · exact ⟨rfl, hrel⟩
      · obtain ⟨out, ms₂, Ms₂, hx, hy, hrel₂⟩ := (hmsgs hrel).exists_eq
        rw [hx, hy]
        cases out with
        | error p => exact ⟨rfl, hrel₂⟩
        | ok result => exact ⟨rfl, hrel₂⟩

theorem runTxWith_simulates {body : (S → σ) → (Except Panic Result × Nat) × (S → σ)}
    {bodyMaps : (S → MemDB K V) → (Except Panic Result × Nat) × (S → MemDB K V)}
    (hbody : ∀ {ms Ms}, MultiRel R ms Ms → Simulates R (body ms) (bodyMaps Ms))
    (mode : RunTxMode) (env : TxEnv) {ms : S → σ} {Ms : S → MemDB K V} (h : MultiRel R ms Ms) :
    Simulates R (runTxWith body mode env ms) (runTxWith bodyMaps mode env Ms) := by
  unfold runTxWith
  split
  · exact ⟨rfl, h⟩
  · obtain ⟨⟨out, gasWanted⟩, ms', Ms', hx, hy, hrel⟩ := (hbody h).exists_eq
    rw [hx, hy]
    exact ⟨rfl, hrel⟩


/-- The state `runTxWith` leaves is the body's, unless the block is out of gas. -/
theorem runTxWith_snd (body : (S → σ) → (Except Panic Result × Nat) × (S → σ))
    (mode : RunTxMode) (env : TxEnv) (ms : S → σ) :
    (runTxWith body mode env ms).2 =
      if mode = .deliver ∧ env.blockOutOfGas = true then ms else (body ms).2 := by
  unfold runTxWith
  split <;> rfl

end PhaseRefinement

section TxRefinement

variable {S σ ι K V M T : Type} [DecidableEq S] [LinearOrder K]

/-- Over any store that implements plain maps, `runTx` on the transaction's multistore returns what
the all-or-nothing semantics on the maps returns, and leaves a multistore that stands for the maps it
leaves: in every mode, for every transaction, ante handler and router. -/
theorem runTxOn_simulates {st : KVStore σ ι K V} {R : σ → MemDB K V → Prop}
    (hp : Implements st R) (b : st.cursor.Bounded) (mm : MsgMethods M T) (app : BaseApp S K V M T)
    (mode : RunTxMode) (env : TxEnv) (tx : T) {ms : S → σ} {Ms : S → MemDB K V}
    (h : MultiRel R ms Ms) :
    Simulates R (runTxOn st b mm app mode env tx ms) (atomicTxOn mm app mode env tx Ms) :=
  runTxWith_simulates
    (runTxPhases_simulates (runAnte_simulates hp b mode app tx)
      (runMsgsCached_simulates hp b mm app.router mode env.gasUsed _) mm mode tx) mode env h

end TxRefinement


/-! ### What a delivered transaction leaves -/

section Outcome

variable {S K V M T : Type} [DecidableEq S] [LinearOrder K]

/-- On plain maps, a delivered transaction gets past its ante handler: there is block gas left, its
messages pass `ValidateBasic`, and the ante handler, if there is one, neither panics nor aborts; it
leaves `Ms₁`. -/
def AntePasses (mm : MsgMethods M T) (app : BaseApp S K V M T) (env : TxEnv) (tx : T)
    (Ms Ms₁ : S → MemDB K V) : Prop :=
  env.blockOutOfGas = false ∧ validateBasicTxMsgs mm (mm.getMsgs tx) = none ∧
    ∃ gasWanted, anteOnMaps app .deliver tx Ms = (.pass gasWanted, Ms₁)

/-- On plain maps, every message has a route and its handler, run on what the handlers before it left,
returns an OK result without panicking; the last one leaves `Ms₂`. -/
inductive HandlersSucceed (mm : MsgMethods M T) (router : String → Option (M → Prog S K V Result)) :
    List M → (S → MemDB K V) → (S → MemDB K V) → Prop
  | nil (Ms : S → MemDB K V) : HandlersSucceed mm router [] Ms Ms
  | cons {msg : M} {msgs : List M} {handler : M → Prog S K V Result} {Ms Ms' Ms₂ : S → MemDB K V}
      {result : Result} :
      router (mm.route msg) = some handler →
      (handler msg).run memDB memDBBounded Ms = (.ok result, Ms') → result.isOK = true →
      HandlersSucceed mm router msgs Ms' Ms₂ → HandlersSucceed mm router (msg :: msgs) Ms Ms₂

/-- The ways a delivered transaction can end, on plain maps: (a) it is rejected before or by its ante
handler and leaves the maps as they were; (b) its ante handler passes but the messages do not all
succeed, and only the ante handler's writes remain; (c) everything succeeds, and the ante handler's and
all handlers' writes remain. -/
inductive DeliverOutcome (mm : MsgMethods M T) (app : BaseApp S K V M T) (env : TxEnv) (tx : T)
    (Ms : S → MemDB K V) : (S → MemDB K V) → Prop
  | rejected : (∀ Ms₁, ¬ AntePasses mm app env tx Ms Ms₁) → DeliverOutcome mm app env tx Ms Ms
  | msgsFailed {Ms₁ : S → MemDB K V} : AntePasses mm app env tx Ms Ms₁ →
      (∀ Ms₂, ¬ HandlersSucceed mm app.router (mm.getMsgs tx) Ms₁ Ms₂) →
      DeliverOutcome mm app env tx Ms Ms₁
  | committed {Ms₁ Ms₂ : S → MemDB K V} : AntePasses mm app env tx Ms Ms₁ →
      HandlersSucceed mm app.router (mm.getMsgs tx) Ms₁ Ms₂ → DeliverOutcome mm app env tx Ms Ms₂

variable (mm : MsgMethods M T) (router : String → Option (M → Prog S K V Result)) (gasUsed : Nat)

/-- The ante handler on maps passes, or leaves the maps as they were. -/
theorem anteOnMaps_pass_or_eq (app : BaseApp S K V M T) (mode : RunTxMode) (tx : T)
    (Ms : S → MemDB K V) :
    (∃ gasWanted, (anteOnMaps app mode tx Ms).1 = .pass gasWanted) ∨
      (anteOnMaps app mode tx Ms).2 = Ms := by
  unfold anteOnMaps
  split
  · exact .inl ⟨0, rfl⟩
  · split
    · exact .inr rfl
    · split
      · exact .inr rfl
      · exact .inl ⟨_, rfl⟩

/-- Handlers that all succeed run through the loop of `runMsgs` to the end, and the code stays. -/
theorem runMsgsFrom_of_handlersSucceed {msgs : List M} {Ms Ms₂ : S → MemDB K V}
    (hs : HandlersSucceed mm router msgs Ms Ms₂) (msgIdx : Nat) (acc : MsgsAcc) :
    ∃ acc' : MsgsAcc, runMsgsFrom memDB memDBBounded mm router .deliver gasUsed msgIdx msgs acc Ms =
      (.ok (acc'.result gasUsed), Ms₂) ∧ acc'.code = acc.code := by
  induction hs generalizing msgIdx acc with
  | nil Ms => exact ⟨acc, rfl, rfl⟩
  | cons hroute hrun hok _ ih =>
    simp only [runMsgsFrom, hroute, handleMsg, reduceCtorEq, if_false, hrun, hok, if_true]
    exact ih _ _

/-- A loop of `runMsgs` started with `CodeOK` that ends OK ran every message's handler to an OK
result. -/
theorem handlersSucceed_of_runMsgsFrom {msgs : List M} :
    ∀ {msgIdx : Nat} {acc : MsgsAcc} {Ms Ms₂ : S → MemDB K V} {result : Result},
      acc.code = codeOK →
      runMsgsFrom memDB memDBBounded mm router .deliver gasUsed msgIdx msgs acc Ms =
        (.ok result, Ms₂) → result.isOK = true → HandlersSucceed mm router msgs Ms Ms₂ := by
  induction msgs with
  | nil =>
    intro msgIdx acc Ms Ms₂ result _ hrun _
    simp only [runMsgsFrom, Prod.mk.injEq] at hrun
    rw [← hrun.2]
    exact .nil Ms
  | cons msg msgs ih =>
    intro msgIdx acc Ms Ms₂ result hcode hrun hok
    simp only [runMsgsFrom] at hrun
    cases hroute : router (mm.route msg) with
    | none =>
      -- an unroutable message ends the loop with `ErrUnknownRequest`, which is not OK
      simp only [hroute, Prod.mk.injEq, Except.ok.injEq] at hrun
      rw [← hrun.1] at hok
      simp [errUnknownRequest, codeOK] at hok
    | some handler =>
      simp only [hroute, handleMsg, reduceCtorEq, if_false] at hrun
      rcases hh : (handler msg).run memDB memDBBounded Ms with ⟨_ | msgResult, Ms'⟩
      · simp [hh] at hrun
      · simp only [hh] at hrun
        by_cases hmsg : msgResult.isOK = true
        · -- the handler succeeded: the loop goes on with the same code
          simp only [hmsg, if_true] at hrun
          refine .cons hroute hh hmsg (ih ?_ hrun hok)
          exact hcode
        · -- the handler failed: the loop stops with its code, which is not OK
          simp only [hmsg, Bool.false_eq_true, if_false, Prod.mk.injEq, Except.ok.injEq] at hrun
          rw [← hrun.1] at hok
          exact absurd hok (by simpa [MsgsAcc.result, Result.isOK] using hmsg)

theorem atomicTxOn_deliver_outcome (app : BaseApp S K V M T) (env : TxEnv) (tx : T)
    (Ms : S → MemDB K V) :
    DeliverOutcome mm app env tx Ms (atomicTxOn mm app .deliver env tx Ms).2 := by
  unfold atomicTxOn
  rw [runTxWith_snd]
  by_cases hgas : env.blockOutOfGas = true
  · -- no block gas left: nothing runs
    rw [if_pos ⟨rfl, hgas⟩]
    refine .rejected fun Ms₁ hpass => ?_
    simp [AntePasses, hgas] at hpass
  rw [if_neg fun h => hgas h.2]
  have hgas' : env.blockOutOfGas = false := by simpa using hgas
  unfold runTxPhases
  cases hvalid : validateBasicTxMsgs mm (mm.getMsgs tx) with
  | some err =>
    refine .rejected fun Ms₁ hpass => ?_
    simp [AntePasses, hvalid] at hpass
  | none =>
    dsimp only
    have hkeep := anteOnMaps_pass_or_eq app .deliver tx Ms
    generalize hante : anteOnMaps app .deliver tx Ms = ante at hkeep
    obtain ⟨out, Ms₁⟩ := ante
    cases out with
    | panic p =>
      -- a panicking or aborting ante handler leaves the maps as they were
      obtain ⟨g, hg⟩ | rfl := hkeep
      · cases hg
      refine .rejected fun Ms₁' hpass => ?_
      obtain ⟨-, -, g, h⟩ := hpass
      rw [hante] at h
      simp at h
    | abort result =>
      obtain ⟨g, hg⟩ | rfl := hkeep
      · cases hg
      refine .rejected fun Ms₁' hpass => ?_
      obtain ⟨-, -, g, h⟩ := hpass
      rw [hante] at h
      simp at h
    | pass gasWanted =>
    dsimp only
    have hpass : AntePasses mm app env tx Ms Ms₁ := ⟨hgas', hvalid, gasWanted, hante⟩
    simp only [reduceCtorEq, if_false]
    unfold msgsOnMaps
    rcases hmsgs : runMsgs memDB memDBBounded mm app.router .deliver env.gasUsed (mm.getMsgs tx) Ms₁
      with ⟨_ | result, Ms₂⟩
    · -- a handler panicked: the messages did not all succeed
      refine .msgsFailed hpass fun Ms₂' hs => ?_
      obtain ⟨acc', hloop, -⟩ := runMsgsFrom_of_handlersSucceed mm app.router env.gasUsed hs 0 MsgsAcc.empty
      rw [runMsgs, hloop] at hmsgs
      simp at hmsgs
    · simp only [reduceCtorEq, if_false]
      by_cases hok : result.isOK = true
      · simp only [hok, if_true]
        exact .committed hpass (handlersSucceed_of_runMsgsFrom mm app.router env.gasUsed rfl hmsgs hok)
      · simp only [hok, Bool.false_eq_true, if_false]
        refine .msgsFailed hpass fun Ms₂' hs => hok ?_
        obtain ⟨acc', hloop, hcode⟩ := runMsgsFrom_of_handlersSucceed mm app.router env.gasUsed hs 0 MsgsAcc.empty
        rw [runMsgs, hloop] at hmsgs
        simp only [Prod.mk.injEq, Except.ok.injEq] at hmsgs
        rw [← hmsgs.1]
        simp [MsgsAcc.result, Result.isOK, hcode, MsgsAcc.empty, codeOK]

/-- A run of handlers that all succeed is determined by where it starts. -/
theorem HandlersSucceed.unique {msgs : List M} {Ms Ms₂ Ms₂' : S → MemDB K V}
    (h : HandlersSucceed mm router msgs Ms Ms₂) (h' : HandlersSucceed mm router msgs Ms Ms₂') :
    Ms₂ = Ms₂' := by
  obtain ⟨acc, hloop, -⟩ := runMsgsFrom_of_handlersSucceed mm router 0 h 0 MsgsAcc.empty
  obtain ⟨acc', hloop', -⟩ := runMsgsFrom_of_handlersSucceed mm router 0 h' 0 MsgsAcc.empty
  rw [hloop] at hloop'
  exact (Prod.mk.inj hloop').2

theorem AntePasses.unique {app : BaseApp S K V M T} {env : TxEnv} {tx : T}
    {Ms Ms₁ Ms₁' : S → MemDB K V} (h : AntePasses mm app env tx Ms Ms₁)
    (h' : AntePasses mm app env tx Ms Ms₁') : Ms₁ = Ms₁' := by
  obtain ⟨-, -, g, hg⟩ := h
  obtain ⟨-, -, g', hg'⟩ := h'
  rw [hg] at hg'
  exact (Prod.mk.inj hg').2

/-- Exactly one of the three outcomes applies, and it fixes the maps the transaction leaves. -/
theorem DeliverOutcome.unique {app : BaseApp S K V M T} {env : TxEnv} {tx : T}
    {Ms Ms' Ms'' : S → MemDB K V} (h : DeliverOutcome mm app env tx Ms Ms')
    (h' : DeliverOutcome mm app env tx Ms Ms'') : Ms' = Ms'' := by
  cases h with
  | rejected hno =>
    cases h' with
    | rejected _ => rfl
    | msgsFailed hpass _ => exact absurd hpass (hno _)
    | committed hpass _ => exact absurd hpass (hno _)
  | msgsFailed hpass hfail =>
    cases h' with
    | rejected hno => exact absurd hpass (hno _)
    | msgsFailed hpass' _ => exact hpass.unique mm hpass'
    | committed hpass' hs =>
      rw [← hpass.unique mm hpass'] at hs
      exact absurd hs (hfail _)
  | committed hpass hs =>
    cases h' with
    | rejected hno => exact absurd hpass (hno _)
    | msgsFailed hpass' hfail =>
      rw [hpass.unique mm hpass'] at hs
      exact absurd hs (hfail _)
    | committed hpass' hs' =>
      rw [hpass.unique mm hpass'] at hs
      exact hs.unique mm app.router hs'

end Outcome

section Deliver

variable {S σ ι K V M T : Type} [DecidableEq S] [LinearOrder K]

/-- `DeliverTx` works on the deliver state alone. -/
theorem runTx_deliver (p : KVStore σ ι K V) (b : p.cursor.Bounded) (mm : MsgMethods M T)
    (app : BaseApp S K V M T) (env : TxEnv) (tx : T) (state : AppState S σ) :
    runTx p b mm app .deliver env tx state =
      ((runTxOn p b mm app .deliver env tx state.deliverState).1,
        { state with deliverState := (runTxOn p b mm app .deliver env tx state.deliverState).2 }) :=
  rfl

/-- Transaction atomicity: over a deliver state that stands for the maps `Ms`, the deliver state after
`runTx` stands for the maps of the one outcome that applies: `Ms` itself if the transaction is rejected
before or by its ante handler, the ante handler's writes alone if the messages do not all succeed, and
the ante handler's and every handler's writes if they do; the check state is untouched. -/
theorem runTx_deliver_atomic {p : KVStore σ ι K V} {Rp : σ → MemDB K V → Prop}
    (hp : Implements p Rp) (b : p.cursor.Bounded) (mm : MsgMethods M T) (app : BaseApp S K V M T)
    (env : TxEnv) (tx : T) {state : AppState S σ} {Ms : S → MemDB K V}
    (h : MultiRel Rp state.deliverState Ms) :
    ∃ Ms', DeliverOutcome mm app env tx Ms Ms' ∧
      MultiRel Rp (runTx p b mm app .deliver env tx state).2.deliverState Ms' ∧
      (runTx p b mm app .deliver env tx state).2.checkState = state.checkState := by
  obtain ⟨-, hrel⟩ := runTxOn_simulates hp b mm app .deliver env tx h
  rw [runTx_deliver]
  exact ⟨_, atomicTxOn_deliver_outcome mm app env tx Ms, hrel, rfl⟩

/-- Messages that are numbers, all routed to `bank`; a transaction carries the messages `1` and `2`. -/
def numberedMsgs : MsgMethods Nat Unit :=
  ⟨fun _ => "bank", fun _ => "send", fun _ => none, fun _ => [1, 2]⟩

/-- An ante handler that writes a fee of 100 under key `0`, and a `bank` handler that writes each
message under its own key and fails on message `2`. -/
def feeThenWrite : BaseApp Unit Nat Nat Nat Unit :=
  ⟨some fun _ _ => .set () 0 100 (.ret (Result.zero, false)),
    fun route => if route = "bank" then
      some fun msg => .set () msg msg (.ret (if msg = 2 then { Result.zero with code := 5 } else Result.zero))
      else none⟩

theorem runTx_deliver_atomic_memDB :
    ∃ Ms', DeliverOutcome numberedMsgs feeThenWrite ⟨false, none, 0, ""⟩ () (fun _ => ∅) Ms' ∧
      MultiRel Eq (runTx memDB memDBBounded numberedMsgs feeThenWrite .deliver ⟨false, none, 0, ""⟩ ()
        ⟨fun _ => ∅, fun _ => ∅⟩).2.deliverState Ms' ∧
      (runTx memDB memDBBounded numberedMsgs feeThenWrite .deliver ⟨false, none, 0, ""⟩ ()
        ⟨fun _ => ∅, fun _ => ∅⟩).2.checkState = fun _ => ∅ :=
  runTx_deliver_atomic memDB_implements memDBBounded _ _ _ () (fun _ => rfl)

/-- The writes of both messages are dropped with the failure of the second; the fee stays. -/
example : (runTx memDB memDBBounded numberedMsgs feeThenWrite .deliver ⟨false, none, 0, ""⟩ ()
    ⟨fun _ => ∅, fun _ => ∅⟩).2.deliverState () = Finmap.singleton 0 100 := by
  decide +kernel

end Deliver

end CosmosSdk.Baseapp
