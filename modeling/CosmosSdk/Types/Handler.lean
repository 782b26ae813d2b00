import CosmosSdk.Store.CacheMulti

/-!
# Results, errors and handlers

`sdk.Result` and `sdk.Error` (`types/result.go`, `types/errors.go`) as `baseapp` builds and reads them,
and the handlers (`sdk.Handler`, `sdk.AnteHandler`, `types/handler.go`).  A handler is modelled by what
it does to the multistore: a `Prog` of reads, writes, deletes and iterations that ends in a value or in
a panic.  `Prog.run st b prog ms` runs it on a multistore whose substores are states of the store `st`.

The logs the code renders as JSON (`ABCILog`, the marshalled message logs) are kept as the values they
encode (`ResultLog`).

* `Prog.run_implements`: on a multistore that stands for the maps `M`, a program returns what it
  returns on `M` and leaves a multistore that stands for the maps it leaves.
-/

namespace CosmosSdk

/-! ### Results and errors -/

/-- `sdk.Tags`: key/value pairs. -/
abbrev Tags := List (String × String)

/-- `Result.Log`: a handler's own text, an error's `ABCILog` (codespace, code and message), or
`runMsgs`'s list of indexed message logs (`MsgIndex`, `Success`, `Log`). -/
inductive ResultLog where
  | text (log : String)
  | error (codespace : String) (code : Nat) (message : String)
  | msgs (idxlogs : List (Nat × Bool × ResultLog))

/-- `sdk.Result`. -/
structure Result where
  code : Nat
  codespace : String
  data : List UInt8
  log : ResultLog
  gasWanted : Nat
  gasUsed : Nat
  tags : Tags

/-- The zero value `sdk.Result{}`. -/
def Result.zero : Result := ⟨0, "", [], .text "", 0, 0, []⟩

/-- `CodeOK`. -/
def codeOK : Nat := 0

/-- `Result.IsOK`. -/
def Result.isOK (result : Result) : Bool := result.code == codeOK

/-- `sdk.Error`: a codespace, a code and a message. -/
structure Error where
  codespace : String
  code : Nat
  message : String

/-- `sdkError.Result`. -/
def Error.result (err : Error) : Result :=
  { Result.zero with code := err.code, codespace := err.codespace,
                     log := .error err.codespace err.code err.message }

/-- `CodespaceRoot`. -/
def codespaceRoot : String := "sdk"

/-- `newErrorWithRootCodespace`. -/
def newErrorWithRootCodespace (code : Nat) (msg : String) : Error := ⟨codespaceRoot, code, msg⟩

/-- `ErrInternal`, with `CodeInternal = 1`. -/
def errInternal (msg : String) : Error := newErrorWithRootCodespace 1 msg

/-- `ErrUnknownRequest`, with `CodeUnknownRequest = 6`. -/
def errUnknownRequest (msg : String) : Error := newErrorWithRootCodespace 6 msg

/-- `ErrInvalidAddress`, with `CodeInvalidAddress = 7`. -/
def errInvalidAddress (msg : String) : Error := newErrorWithRootCodespace 7 msg

/-- `ErrUnknownAddress`, with `CodeUnknownAddress = 9`. -/
def errUnknownAddress (msg : String) : Error := newErrorWithRootCodespace 9 msg

/-- `ErrInsufficientCoins`, with `CodeInsufficientCoins = 10`. -/
def errInsufficientCoins (msg : String) : Error := newErrorWithRootCodespace 10 msg

/-- `ErrInvalidCoins`, with `CodeInvalidCoins = 11`. -/
def errInvalidCoins (msg : String) : Error := newErrorWithRootCodespace 11 msg

/-- `ErrOutOfGas`, with `CodeOutOfGas = 12`. -/
def errOutOfGas (msg : String) : Error := newErrorWithRootCodespace 12 msg

@[simp] theorem Result.zero_isOK : Result.zero.isOK = true := rfl

/-- An error's result is OK exactly when its code is `CodeOK`; the root errors above never are. -/
@[simp] theorem Error.result_isOK (err : Error) : err.result.isOK = (err.code == codeOK) := rfl

@[simp] theorem newErrorWithRootCodespace_code (code : Nat) (msg : String) :
    (newErrorWithRootCodespace code msg).code = code := rfl

/-! ### Handlers as programs over the multistore -/

/-- A Go panic: the gas meters' `ErrorOutOfGas` and `ErrorGasOverflow`, or any other value, by its
printed text. -/
inductive Panic where
  | outOfGas (descriptor : String)
  | gasOverflow (descriptor : String)
  | other (value : String)
  deriving DecidableEq

/-- The panic value as `%v` prints it. -/
def Panic.render : Panic → String
  | .outOfGas descriptor => "\x7b" ++ descriptor ++ "\x7d"
  | .gasOverflow descriptor => "\x7b" ++ descriptor ++ "\x7d"
  | .other value => value

/-- What a handler does with the multistore of its context, addressed by store key: read a key, write
or delete one, iterate a domain of a substore (in either direction), and finish with a value or panic. -/
inductive Prog (S K V R : Type) where
  | ret (r : R)
  | get (sk : S) (key : K) (cont : Option V → Prog S K V R)
  | set (sk : S) (key : K) (value : V) (rest : Prog S K V R)
  | delete (sk : S) (key : K) (rest : Prog S K V R)
  | iterate (sk : S) (start end_ : Option K) (ascending : Bool) (cont : List (K × V) → Prog S K V R)
  | panic (p : Panic)

namespace Prog

variable {S σ ι K V R : Type} [DecidableEq S] [LinearOrder K]

/-- Run a program on the multistore `ms` of store `st`: the value or the panic it ends with, and the
multistore it leaves (on a panic, the one at the panic). -/
def run (st : KVStore σ ι K V) (b : st.cursor.Bounded) : Prog S K V R → (S → σ) → Except Panic R × (S → σ)
  | .ret r, ms => (.ok r, ms)
  | .get sk key cont, ms =>
    run st b (cont (st.get (ms sk) key).1) (Function.update ms sk (st.get (ms sk) key).2)
  | .set sk key value rest, ms => run st b rest (Function.update ms sk (st.set (ms sk) key value))
  | .delete sk key rest, ms => run st b rest (Function.update ms sk (st.delete (ms sk) key))
  | .iterate sk start end_ ascending cont, ms =>
    run st b (cont (b.toList (st.iterator (ms sk) start end_ ascending))) ms
  | .panic p, ms => (.error p, ms)

/-- Programs see no difference between a store and the maps it stands for. -/
theorem run_implements {st : KVStore σ ι K V} {Rs : σ → MemDB K V → Prop} (hp : Implements st Rs)
    (b : st.cursor.Bounded) (prog : Prog S K V R) {ms : S → σ} {M : S → MemDB K V}
    (h : MultiRel Rs ms M) : Simulates Rs (prog.run st b ms) (prog.run memDB memDBBounded M) := by
  induction prog generalizing ms M with
  | ret r => exact ⟨rfl, h⟩
  | get sk key cont ih =>
    obtain ⟨hval, hs⟩ := hp.get key (h sk)
    -- the map is unchanged by the read, the store may have filled a cache
    have hM : Function.update M sk (M sk) = M := Function.update_eq_self sk M
    have := ih ((M sk).lookup key) (h.update sk hs)
    simp only [run, hval, memDB_get, hM] at this ⊢
    exact this
  | set sk key value rest ih => exact ih (h.update sk (hp.set key value (h sk)))
  | delete sk key rest ih => exact ih (h.update sk (hp.delete key (h sk)))
  | iterate sk start end_ ascending cont ih =>
    simp only [run, hp.toList_iterator b (h sk), memDB_iterator, memDBBounded_toList]
    exact ih _ h
  | panic p => exact ⟨rfl, h⟩

end Prog

end CosmosSdk
