import CosmosSdk.Lib.Transition
import CosmosSdk.Store.Types

/-!
# The IAVL iterator

`Store.Iterator` and `Store.ReverseIterator` of the IAVL store (`store/iavl/store.go`) turn the
callback of `ImmutableTree.IterateRange` into a pull iterator with two goroutines and three channels.
`iterateRoutine` walks the range and, for each pair, `select`s between sending it on the unbuffered
`iterCh` and seeing `quitCh` closed, which stops the walk; either way it ends by closing `iterCh`.
`initRoutine` receives the first pair (`receiveNext`) and closes `initCh`.  The caller's `Valid`,
`Next`, `Key` and `Value` wait for `initCh` and then work under `mtx`; `Next` receives the next pair
while holding it.  `Close` closes `quitCh`.

`Iterator` is the state of the channels, the mutex, the iterator's fields and the three goroutines,
and `Step` its atomic steps, with the event each shows: a send over `iterCh` is one step of the
sender and the receiver together, and a goroutine's local work up to its next interaction with
another is folded into the step before it.  `pending` is what `IterateRange` has yet to hand to the
callback, and the ghost `received` lists the pairs `receiveNext` has set, in order.  The range is
`MemDB.listing` of the tree's entries.

In every reachable state (`Inv`, `inv_of_reachable`):

* the pairs received, followed by those pending, are the range (`received_append_pending`): none
  is skipped or received twice, and `Key` and `Value` read the last one received;
* an invalid iterator has its `iterCh` closed, and the walk was exhausted unless `quitCh` was closed:
  without `Close`, an iterator becomes invalid only after every pair of the range was received;
* the mutex is held exactly while a call is past its `Lock` (`locked_iff`): a call that panics in
  `assertIsValid(true)` has unlocked it, and the assertions of `setNext` and `setInvalid`, which
  would panic with it held, never fail (`not_step_assertFailed`).

Once `quitCh` is closed `iterateRoutine` is never blocked (`producer_enabled_of_quit`), and each of
its steps lowers its rank, so it closes `iterCh` within `rank it` of its steps
(`iterClosed_of_run`).  A `Close` before the range is exhausted lets the `select` take `quitCh`,
and the caller then sees the iterator turn invalid after a strict prefix of the range
(`close_first_truncates`).
-/

namespace CosmosSdk.Iavl

open Transition

/-- The calls of `types.Iterator` that wait for `initCh`. -/
inductive Op where
  | valid
  | next
  | key
  | value
  deriving DecidableEq

/-- Where the caller's goroutine is. -/
inductive Caller where
  | idle
  /-- In `waitInit`, at the start of a call. -/
  | waitInit (op : Op)
  /-- Past `mtx.Lock()`. -/
  | held (op : Op)
  /-- In the `receiveNext` of `Next`, holding `mtx`. -/
  | receiving
  deriving DecidableEq

/-- An `iavlIterator` with its goroutines. -/
structure Iterator (K V : Type) where
  /-- The pairs `IterateRange` has yet to hand to the callback of `iterateRoutine`. -/
  pending : List (K × V)
  /-- Whether `iterateRoutine` has closed `iterCh` and ended. -/
  iterClosed : Bool
  quitClosed : Bool
  /-- Whether `initRoutine` has closed `initCh` and ended. -/
  initClosed : Bool
  key : Option K
  value : Option V
  invalid : Bool
  locked : Bool
  caller : Caller
  /-- The pairs `receiveNext` has set, in order: the code keeps only the last. -/
  received : List (K × V)

variable {K V : Type}

/-- `newIAVLIterator` over a sequence of pairs: both goroutines started, nothing received yet. -/
def newIAVLIteratorOf (items : List (K × V)) : Iterator K V where
  pending := items
  iterClosed := false
  quitClosed := false
  initClosed := false
  key := none
  value := none
  invalid := false
  locked := false
  caller := .idle
  received := []

/-- `newIAVLIterator`: `IterateRange` walks the tree's entries in `[start, end)`, ascending or
descending. -/
def newIAVLIterator [LinearOrder K] (tree : MemDB K V) (start end_ : Option K) (ascending : Bool) :
    Iterator K V :=
  newIAVLIteratorOf (tree.listing start end_ ascending)

/-- What a step shows. -/
inductive Event (K V : Type) where
  /-- The routine `iterateRoutine` hands a pair over `iterCh`. -/
  | send (kv : K × V)
  /-- The routine `iterateRoutine` closes `iterCh`. -/
  | stop
  /-- The routine `initRoutine` receives from the closed `iterCh`. -/
  | initInvalid
  | call (op : Op)
  | lock
  | valid (b : Bool)
  | key (k : Option K)
  | value (v : Option V)
  /-- The call `Next` is past `assertIsValid` and receives. -/
  | receive
  /-- The call `Next` receives from the closed `iterCh`. -/
  | nextInvalid
  | close
  /-- A panic after which the caller goes on: `assertIsValid(true)`, or a second `Close`. -/
  | panic
  /-- An `assertIsValid(false)` in `setNext` or `setInvalid` fails. -/
  | assertFailed

/-- The steps of `iterateRoutine`. -/
def Event.isProducer : Event K V → Bool
  | .send _ | .stop => true
  | _ => false

/-- The atomic steps of the iterator's goroutines. -/
inductive Step : Iterator K V → Event K V → Iterator K V → Prop
  /-- `iterateRoutine` sends a pair and `initRoutine` receives it: `setNext`, `close(initCh)`. -/
  | sendInit {it : Iterator K V} {kv : K × V} {rest : List (K × V)} (hpending : it.pending = kv :: rest)
      (hrun : it.iterClosed = false) (hinit : it.initClosed = false) (hvalid : it.invalid = false) :
      Step it (.send kv)
        { it with
          pending := rest, initClosed := true, key := some kv.1, value := some kv.2,
          received := it.received ++ [kv] }
  /-- `iterateRoutine` sends a pair and `Next` receives it: `setNext`, `mtx.Unlock()`. -/
  | sendNext {it : Iterator K V} {kv : K × V} {rest : List (K × V)} (hpending : it.pending = kv :: rest)
      (hrun : it.iterClosed = false) (hcaller : it.caller = .receiving) (hvalid : it.invalid = false) :
      Step it (.send kv)
        { it with
          pending := rest, key := some kv.1, value := some kv.2, locked := false, caller := .idle,
          received := it.received ++ [kv] }
  /-- The `select` of `iterateRoutine` sees `quitCh` closed: the callback returns `true`, the walk
  stops, and `iterCh` is closed. -/
  | quit {it : Iterator K V} {kv : K × V} {rest : List (K × V)} (hpending : it.pending = kv :: rest)
      (hrun : it.iterClosed = false) (hquit : it.quitClosed = true) :
      Step it .stop { it with iterClosed := true }
  /-- `IterateRange` has walked the whole range, and `iterCh` is closed. -/
  | exhausted {it : Iterator K V} (hpending : it.pending = []) (hrun : it.iterClosed = false) :
      Step it .stop { it with iterClosed := true }
  /-- `initRoutine` receives from the closed `iterCh`: `setInvalid`, `close(initCh)`. -/
  | initInvalid {it : Iterator K V} (hclosed : it.iterClosed = true) (hinit : it.initClosed = false)
      (hvalid : it.invalid = false) :
      Step it .initInvalid { it with invalid := true, initClosed := true }
  /-- The receive of `initRoutine`, or of a `Next`, completes on an invalid iterator: the assertion
  of `setNext` or `setInvalid` panics, in `Next` with `mtx` held. -/
  | assertFailed {it : Iterator K V}
      (hreceiver : it.initClosed = false ∨ it.caller = .receiving)
      (hready : it.iterClosed = true ∨ it.pending ≠ []) (hinvalid : it.invalid = true) :
      Step it .assertFailed it
  /-- A call of `Valid`, `Next`, `Key` or `Value` starts with `waitInit`. -/
  | call {it : Iterator K V} (op : Op) (hidle : it.caller = .idle) :
      Step it (.call op) { it with caller := .waitInit op }
  /-- `initCh` is closed: `waitInit` returns, and `mtx.Lock()` takes the mutex. -/
  | lock {it : Iterator K V} {op : Op} (hwait : it.caller = .waitInit op)
      (hinit : it.initClosed = true) (hfree : it.locked = false) :
      Step it .lock { it with locked := true, caller := .held op }
  /-- `Valid` reads `!invalid` and unlocks. -/
  | valid {it : Iterator K V} (hheld : it.caller = .held .valid) :
      Step it (.valid !it.invalid) { it with locked := false, caller := .idle }
  /-- `Key` passes `assertIsValid`, reads `key` and unlocks. -/
  | key {it : Iterator K V} (hheld : it.caller = .held .key) (hvalid : it.invalid = false) :
      Step it (.key it.key) { it with locked := false, caller := .idle }
  /-- `Value` passes `assertIsValid`, reads `value` and unlocks. -/
  | value {it : Iterator K V} (hheld : it.caller = .held .value) (hvalid : it.invalid = false) :
      Step it (.value it.value) { it with locked := false, caller := .idle }
  /-- `Next` passes `assertIsValid`; its `receiveNext` waits on `iterCh`, `mtx` held. -/
  | next {it : Iterator K V} (hheld : it.caller = .held .next) (hvalid : it.invalid = false) :
      Step it .receive { it with caller := .receiving }
  /-- `Next` receives from the closed `iterCh`: `setInvalid`, `mtx.Unlock()`. -/
  | nextInvalid {it : Iterator K V} (hcaller : it.caller = .receiving) (hclosed : it.iterClosed = true)
      (hvalid : it.invalid = false) :
      Step it .nextInvalid { it with invalid := true, locked := false, caller := .idle }
  /-- `assertIsValid(true)` in `Next`, `Key` or `Value` of an invalid iterator unlocks `mtx`, then
  panics. -/
  | assertPanic {it : Iterator K V} {op : Op} (hheld : it.caller = .held op) (hop : op ≠ .valid)
      (hinvalid : it.invalid = true) :
      Step it .panic { it with locked := false, caller := .idle }
  /-- `Close` closes `quitCh`. -/
  | close {it : Iterator K V} (hidle : it.caller = .idle) (hopen : it.quitClosed = false) :
      Step it .close { it with quitClosed := true }
  /-- A second `Close` closes a closed channel, which panics. -/
  | closeClosed {it : Iterator K V} (hidle : it.caller = .idle) (hclosed : it.quitClosed = true) :
      Step it .panic it

/-- The caller holds `mtx`: past `Lock` in a call, or receiving in `Next`. -/
def Caller.holdsMutex : Caller → Bool
  | .held _ | .receiving => true
  | _ => false

/-! ### What one step changes -/

section Frame

variable {it it' : Iterator K V} {e : Event K V}

/-- A step hands one pending pair to a receiver, which sets it, or touches neither the pairs nor
the iterator's `key` and `value`. -/
theorem Step.pending_cases (h : Step it e it') :
    (∃ kv rest, e = .send kv ∧ it.pending = kv :: rest ∧ it.iterClosed = false ∧
      it'.pending = rest ∧ it'.received = it.received ++ [kv] ∧ it'.key = some kv.1 ∧
      it'.value = some kv.2) ∨
    (it'.pending = it.pending ∧ it'.received = it.received ∧ it'.key = it.key ∧
      it'.value = it.value) := by
  cases h with
  | sendInit hpending hrun => exact .inl ⟨_, _, rfl, hpending, hrun, rfl, rfl, rfl, rfl⟩
  | sendNext hpending hrun => exact .inl ⟨_, _, rfl, hpending, hrun, rfl, rfl, rfl, rfl⟩
  | _ => exact .inr ⟨rfl, rfl, rfl, rfl⟩

/-- No step loses a pair or hands one twice. -/
theorem Step.received_append_pending (h : Step it e it') :
    it'.received ++ it'.pending = it.received ++ it.pending := by
  rcases h.pending_cases with ⟨kv, rest, -, hpending, -, hpending', hreceived, -⟩ | ⟨hp, hr, -⟩
  · rw [hpending', hreceived, hpending, List.append_assoc, List.singleton_append]
  · rw [hp, hr]

/-- Closed channels stay closed, and an invalid iterator stays invalid. -/
theorem Step.mono (h : Step it e it') :
    (it.quitClosed = true → it'.quitClosed = true) ∧ (it.iterClosed = true → it'.iterClosed = true) ∧
      (it.initClosed = true → it'.initClosed = true) ∧ (it.invalid = true → it'.invalid = true) := by
  cases h <;> simp_all

end Frame

/-! ### The invariant, field by field -/

section Fields

variable {it it' : Iterator K V} {e : Event K V}

theorem Step.current (h : Step it e it') (hkey : it.key = it.received.getLast?.map Prod.fst)
    (hvalue : it.value = it.received.getLast?.map Prod.snd) :
    it'.key = it'.received.getLast?.map Prod.fst ∧ it'.value = it'.received.getLast?.map Prod.snd := by
  rcases h.pending_cases with ⟨kv, -, -, -, -, -, hreceived, hkey', hvalue'⟩ | ⟨-, hr, hk, hv⟩
  · simp [hreceived, hkey', hvalue']
  · rw [hr, hk, hv]
    exact ⟨hkey, hvalue⟩

/-- Before `initCh` is closed nothing was received: only `initRoutine` and a `Next`, which waits for
`initCh`, receive. -/
theorem Step.before_init (h : Step it e it')
    (hbefore : it.initClosed = false → it.received = [] ∧ it.invalid = false)
    (hrecv : it.caller = .receiving → it.initClosed = true) :
    it'.initClosed = false → it'.received = [] ∧ it'.invalid = false := by
  cases h <;> simp_all

theorem Step.received_ne_nil (h : Step it e it')
    (hne : it.initClosed = true → it.invalid = false → it.received ≠ []) :
    it'.initClosed = true → it'.invalid = false → it'.received ≠ [] := by
  cases h <;> simp_all

theorem Step.closed_of_invalid (h : Step it e it') (hclosed : it.invalid = true → it.iterClosed = true) :
    it'.invalid = true → it'.iterClosed = true := by
  cases h <;> simp_all

/-- `iterCh` is closed with pairs left only when the walk stopped at `quitCh`. -/
theorem Step.quit_of_stopped (h : Step it e it')
    (hquit : it.iterClosed = true → it.pending ≠ [] → it.quitClosed = true) :
    it'.iterClosed = true → it'.pending ≠ [] → it'.quitClosed = true := by
  cases h <;> simp_all

theorem Step.locked_iff (h : Step it e it') (hlocked : it.locked = it.caller.holdsMutex) :
    it'.locked = it'.caller.holdsMutex := by
  cases h <;> simp_all [Caller.holdsMutex]

theorem Step.init_of_holds (h : Step it e it')
    (hinit : it.caller.holdsMutex = true → it.initClosed = true) :
    it'.caller.holdsMutex = true → it'.initClosed = true := by
  cases h <;> simp_all [Caller.holdsMutex]

theorem Step.valid_of_receiving (h : Step it e it') (hvalid : it.caller = .receiving → it.invalid = false)
    (hrecv : it.caller = .receiving → it.initClosed = true) :
    it'.caller = .receiving → it'.invalid = false := by
  cases h <;> simp_all

end Fields

/-! ### The invariant -/

/-- What holds in every reachable state of an iterator over `items`. -/
structure Inv (items : List (K × V)) (it : Iterator K V) : Prop where
  received_append_pending : it.received ++ it.pending = items
  key_eq : it.key = it.received.getLast?.map Prod.fst
  value_eq : it.value = it.received.getLast?.map Prod.snd
  before_init : it.initClosed = false → it.received = [] ∧ it.invalid = false
  received_ne_nil : it.initClosed = true → it.invalid = false → it.received ≠ []
  closed_of_invalid : it.invalid = true → it.iterClosed = true
  quit_of_stopped : it.iterClosed = true → it.pending ≠ [] → it.quitClosed = true
  locked_iff : it.locked = it.caller.holdsMutex
  init_of_holds : it.caller.holdsMutex = true → it.initClosed = true
  valid_of_receiving : it.caller = .receiving → it.invalid = false

variable {items : List (K × V)} {it it' : Iterator K V} {e : Event K V}

theorem inv_newIAVLIteratorOf (items : List (K × V)) : Inv items (newIAVLIteratorOf items) := by
  constructor <;> simp [newIAVLIteratorOf, Caller.holdsMutex]

theorem Inv.init_of_receiving (h : Inv items it) (hc : it.caller = .receiving) : it.initClosed = true :=
  h.init_of_holds (by rw [hc]; rfl)

theorem Inv.step (h : Inv items it) (hstep : Step it e it') : Inv items it' where
  received_append_pending := hstep.received_append_pending.trans h.received_append_pending
  key_eq := (hstep.current h.key_eq h.value_eq).1
  value_eq := (hstep.current h.key_eq h.value_eq).2
  before_init := hstep.before_init h.before_init h.init_of_receiving
  received_ne_nil := hstep.received_ne_nil h.received_ne_nil
  closed_of_invalid := hstep.closed_of_invalid h.closed_of_invalid
  quit_of_stopped := hstep.quit_of_stopped h.quit_of_stopped
  locked_iff := hstep.locked_iff h.locked_iff
  init_of_holds := hstep.init_of_holds h.init_of_holds
  valid_of_receiving := hstep.valid_of_receiving h.valid_of_receiving h.init_of_receiving

theorem inv_of_reachable (h : Reachable Step (newIAVLIteratorOf items) it) : Inv items it :=
  h.invariant (fun _ _ _ hi hs => hi.step hs) (inv_newIAVLIteratorOf items)

/-! ### What the caller sees -/

/-- The pairs received are the first ones of the range, in order. -/
theorem Inv.received_prefix (h : Inv items it) : it.received <+: items :=
  ⟨it.pending, h.received_append_pending⟩

/-- An iterator turns invalid before its range is exhausted only once `quitCh` is closed. -/
theorem Inv.received_eq_of_invalid (h : Inv items it) (hinvalid : it.invalid = true)
    (hopen : it.quitClosed = false) : it.received = items := by
  -- the walk was not stopped at `quitCh`, so nothing is pending
  have hpending : it.pending = [] := by
    by_contra hne
    have := h.quit_of_stopped (h.closed_of_invalid hinvalid) hne
    rw [hopen] at this
    cases this
  rw [← h.received_append_pending, hpending, List.append_nil]

theorem Step.valid_inv {b : Bool} (h : Step it (.valid b) it') : b = !it.invalid := by
  cases h
  rfl

theorem Step.key_inv {k : Option K} (h : Step it (.key k) it') :
    it.caller = .held .key ∧ it.invalid = false ∧ k = it.key := by
  cases h with
  | key hheld hvalid => exact ⟨hheld, hvalid, rfl⟩

theorem Step.value_inv {v : Option V} (h : Step it (.value v) it') :
    it.caller = .held .value ∧ it.invalid = false ∧ v = it.value := by
  cases h with
  | value hheld hvalid => exact ⟨hheld, hvalid, rfl⟩

/-- A valid iterator past `waitInit` has received a pair. -/
theorem Inv.getLast?_of_held (h : Inv items it) {op : Op} (hheld : it.caller = .held op)
    (hvalid : it.invalid = false) : ∃ kv, it.received.getLast? = some kv := by
  have hinit := h.init_of_holds (by rw [hheld]; rfl)
  obtain ⟨kv, hkv⟩ := Option.ne_none_iff_exists'.1 (List.getLast?_eq_none_iff.not.2
    (h.received_ne_nil hinit hvalid))
  exact ⟨kv, hkv⟩

theorem Inv.key_step (h : Inv items it) {k : Option K} (hstep : Step it (.key k) it') :
    ∃ kv, it.received.getLast? = some kv ∧ k = some kv.1 := by
  obtain ⟨hheld, hvalid, rfl⟩ := hstep.key_inv
  obtain ⟨kv, hkv⟩ := h.getLast?_of_held hheld hvalid
  exact ⟨kv, hkv, by rw [h.key_eq, hkv]; rfl⟩

theorem Inv.value_step (h : Inv items it) {v : Option V} (hstep : Step it (.value v) it') :
    ∃ kv, it.received.getLast? = some kv ∧ v = some kv.2 := by
  obtain ⟨hheld, hvalid, rfl⟩ := hstep.value_inv
  obtain ⟨kv, hkv⟩ := h.getLast?_of_held hheld hvalid
  exact ⟨kv, hkv, by rw [h.value_eq, hkv]; rfl⟩

/-! ### The mutex -/

theorem Inv.unlocked_of_idle (h : Inv items it) (hidle : it.caller = .idle) : it.locked = false := by
  rw [h.locked_iff, hidle]
  rfl

/-- In `Key`, `Value` or `Next` of an invalid iterator, the caller's only step is the panic of
`assertIsValid(true)`, which leaves `mtx` unlocked. -/
theorem Inv.panic_of_held_invalid (h : Inv items it) {op : Op} (hheld : it.caller = .held op)
    (hop : op ≠ .valid) (hinvalid : it.invalid = true) (hstep : Step it e it')
    (hmoved : it'.caller ≠ it.caller) : e = .panic ∧ it'.locked = false := by
  have hinv' := h.step hstep
  cases hstep with
  | assertPanic => exact ⟨rfl, rfl⟩
  | sendNext _ _ hcaller => rw [hheld] at hcaller; cases hcaller
  | call _ hidle => rw [hheld] at hidle; cases hidle
  | lock hwait => rw [hheld] at hwait; cases hwait
  | valid hheld' => rw [hheld] at hheld'; cases hheld'; exact absurd rfl hop
  | key _ hvalid => rw [hinvalid] at hvalid; cases hvalid
  | value _ hvalid => rw [hinvalid] at hvalid; cases hvalid
  | next _ hvalid => rw [hinvalid] at hvalid; cases hvalid
  | nextInvalid hcaller => rw [hheld] at hcaller; cases hcaller
  | close hidle => rw [hheld] at hidle; cases hidle
  | closeClosed hidle => rw [hheld] at hidle; cases hidle
  | _ => exact absurd rfl hmoved

/-- The assertions of `setNext` and `setInvalid` never fail: a receive completes only on a valid
iterator. -/
theorem Inv.not_step_assertFailed (h : Inv items it) : ¬Step it .assertFailed it' := by
  intro hstep
  cases hstep with
  | assertFailed hreceiver _ hinvalid =>
    rcases hreceiver with hinit | hrecv
    · rw [(h.before_init hinit).2] at hinvalid
      cases hinvalid
    · rw [h.valid_of_receiving hrecv] at hinvalid
      cases hinvalid

/-! ### `iterateRoutine` ends after `Close` -/

/-- What `iterateRoutine` has left to do: the pending pairs, and closing `iterCh`. -/
def rank (it : Iterator K V) : Nat := if it.iterClosed then 0 else it.pending.length + 1

theorem rank_eq_zero {it : Iterator K V} : rank it = 0 ↔ it.iterClosed = true := by
  unfold rank
  split <;> simp_all

/-- Once `quitCh` is closed, `iterateRoutine` can always move until it has closed `iterCh`. -/
theorem producer_enabled_of_quit (hquit : it.quitClosed = true) (hrun : it.iterClosed = false) :
    ∃ e it', e.isProducer = true ∧ Step it e it' := by
  cases hpending : it.pending with
  | nil => exact ⟨_, _, rfl, .exhausted hpending hrun⟩
  | cons kv rest => exact ⟨_, _, rfl, .quit hpending hrun hquit⟩

theorem Step.rank_le (h : Step it e it') : rank it' ≤ rank it := by
  cases h <;> simp_all [rank]

theorem Step.rank_lt (h : Step it e it') (hprod : e.isProducer = true) : rank it' < rank it := by
  cases h <;> simp_all [rank, Event.isProducer]

/-- `iterateRoutine` closes `iterCh` within `rank it` of its own steps, whatever the others do. -/
theorem iterClosed_of_run {es : List (Event K V)} (hrun : Run Step it es it')
    (hsteps : rank it ≤ (es.filter Event.isProducer).length) : it'.iterClosed = true := by
  have := hrun.rank_add_count_le rank Event.isProducer (fun _ _ _ h => h.rank_le)
    fun _ _ _ h hp => h.rank_lt hp
  exact rank_eq_zero.1 (by omega)

/-! ### The iterator of the IAVL store -/

/-- For every schedule of `iterateRoutine`, `initRoutine` and the caller's calls, and a `Close` at
any point: the pairs received are the first ones of the range, in order, each once, and all of them
when the iterator turns invalid without `Close`; `Valid`, `Key` and `Value` report validity and the
pair last received; `Key`, `Value` and `Next` of an invalid iterator panic, and no call leaves `mtx`
locked; the receives never fail their assertions; and after `Close`, `iterateRoutine` is never
blocked and closes `iterCh` within `rank it` of its steps. -/
theorem iavlIterator_channel_adapter [LinearOrder K] (tree : MemDB K V) (start end_ : Option K)
    (ascending : Bool) (it : Iterator K V)
    (hreach : Reachable Step (newIAVLIterator tree start end_ ascending) it) :
    it.received <+: tree.listing start end_ ascending ∧
    (it.invalid = true → it.quitClosed = false → it.received = tree.listing start end_ ascending) ∧
    (∀ b it', Step it (.valid b) it' → b = !it.invalid) ∧
    (∀ k it', Step it (.key k) it' → ∃ kv, it.received.getLast? = some kv ∧ k = some kv.1) ∧
    (∀ v it', Step it (.value v) it' → ∃ kv, it.received.getLast? = some kv ∧ v = some kv.2) ∧
    (∀ op e it', it.caller = .held op → op ≠ .valid → it.invalid = true → Step it e it' →
      it'.caller ≠ it.caller → e = .panic ∧ it'.locked = false) ∧
    (it.caller = .idle → it.locked = false) ∧
    (∀ it', ¬Step it .assertFailed it') ∧
    (it.quitClosed = true → it.iterClosed = false → ∃ e it', e.isProducer = true ∧ Step it e it') ∧
    (∀ es it', Run Step it es it' → rank it ≤ (es.filter Event.isProducer).length →
      it'.iterClosed = true) := by
  have h := inv_of_reachable hreach
  exact ⟨h.received_prefix, h.received_eq_of_invalid, fun _ _ hs => hs.valid_inv,
    fun _ _ hs => h.key_step hs, fun _ _ hs => h.value_step hs,
    fun _ _ _ hheld hop hinvalid hs hmoved => h.panic_of_held_invalid hheld hop hinvalid hs hmoved,
    h.unlocked_of_idle, fun _ => h.not_step_assertFailed, producer_enabled_of_quit,
    fun _ _ hrun hsteps => iterClosed_of_run hrun hsteps⟩

/-- A tree of one pair read to its end: `initRoutine` receives the pair, `Valid` returns `true`, `Next`
finds `iterCh` closed and the iterator invalid, and what was received is the whole listing. -/
theorem iavlIterator_channel_adapter_one :
    ∃ it, Reachable Step (newIAVLIterator (Finmap.singleton 1 10 : MemDB Nat Nat) none none true) it ∧
      it.invalid = true ∧ it.quitClosed = false ∧
      it.received = MemDB.listing (Finmap.singleton 1 10 : MemDB Nat Nat) none none true := by
  have hlisting : MemDB.listing (Finmap.singleton 1 10 : MemDB Nat Nat) none none true = [(1, 10)] := by
    decide +kernel
  have hreach : Reachable Step (newIAVLIterator (Finmap.singleton 1 10 : MemDB Nat Nat) none none true) _ :=
    ⟨_, .cons (Step.sendInit hlisting rfl rfl rfl) <| .cons (.call .valid rfl) <|
      .cons (.lock rfl rfl rfl) <| .cons (.valid rfl) <| .cons (.call .next rfl) <|
      .cons (.lock rfl rfl rfl) <| .cons (.next rfl rfl) <| .cons (.exhausted rfl rfl) <|
      .cons (.nextInvalid rfl rfl rfl) (.nil _)⟩
  exact ⟨_, hreach, rfl, rfl, (iavlIterator_channel_adapter _ none none true _ hreach).2.1 rfl rfl⟩

/-- `Close` before the first `Valid`: the `select` takes `quitCh`, `initRoutine` finds `iterCh`
closed, and `Valid` returns `false` with nothing received, although the range holds a pair. -/
theorem close_first_truncates :
    ∃ it it', Run Step (newIAVLIterator (Finmap.singleton 1 10 : MemDB Nat Nat) none none true)
        [.close, .stop, .initInvalid, .call .valid, .lock] it ∧
      Step it (.valid false) it' ∧ it.received = [] ∧
      MemDB.listing (Finmap.singleton 1 10 : MemDB Nat Nat) none none true = [(1, 10)] :=
  have hlisting : MemDB.listing (Finmap.singleton 1 10 : MemDB Nat Nat) none none true = [(1, 10)] := by
    decide +kernel
  ⟨_, _, .cons (.close rfl rfl) (.cons (@Step.quit _ _ _ (1, 10) [] hlisting rfl rfl)
    (.cons (.initInvalid rfl rfl rfl) (.cons (.call .valid rfl) (.cons (.lock rfl rfl rfl) (.nil _))))),
    .valid rfl, rfl, hlisting⟩

end CosmosSdk.Iavl
