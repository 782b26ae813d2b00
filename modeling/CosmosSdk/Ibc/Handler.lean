import Mathlib
import CosmosSdk.Bank.Keeper

/-!
# The IBC mapper and handler

`x/ibc`: `MsgIBCTransfer` takes a packet's coins from its sender and posts the packet to the egress
queue of its destination chain; `MsgIBCReceive` checks the message's sequence against the count of
packets received from the packet's source chain, pays the coins out and counts the packet.  The mapper
keeps three families of keys in one store, formatted as text: `egress/<chain>/<index>` for a posted
packet, `egress/<chain>` for the length of a chain's queue and `ingress/<chain>` for the count of
packets received from it.

The bank is the handler's `BankKeeper` interface: any two functions on a bank state `β`
(`bankKeeper` is the bank module's).  The store holds what the codec wrote, a packet or a counter; a
counter read from a packet's bytes panics.  The counters are the code's `uint64` values as natural
numbers: each goes up by one a packet, and the model leaves out the wrap of `uint64` addition, which
only a count of `2^64` packets reaches.

The key families meet in one way only: `egress/<c>/<i>` is also the length key of the chain `c/i`
(`egressKey_eq_egressLengthKey_iff`); every other pair of keys of different chains or indices differ
(`egressKey_inj`, `egressLengthKey_inj`, `ingressSequenceKey_ne_egressKey`, …).  The success of each
handler is described by `handleIBCTransferMsg_eq_ok` and `handleIBCReceiveMsg_eq_ok`.
-/

namespace CosmosSdk.Ibc

open CosmosSdk.Types CosmosSdk.Auth StateExcept

/-! ### Formatted keys -/

/-- `EgressKey`: `egress/%s/%d`. -/
def egressKey (destChain : String) (index : Nat) : String :=
  "egress/" ++ destChain ++ "/" ++ toString index

/-- `EgressLengthKey`: `egress/%s`. -/
def egressLengthKey (destChain : String) : String := "egress/" ++ destChain

/-- `IngressSequenceKey`: `ingress/%s`. -/
def ingressSequenceKey (srcChain : String) : String := "ingress/" ++ srcChain

/-- Two lists split at a last occurrence of the same separator split alike. -/
theorem append_cons_inj_of_not_mem {α : Type} {l₁ l₂ l₁' l₂' : List α} {x : α}
    (h : l₁ ++ x :: l₂ = l₁' ++ x :: l₂') (hx : x ∉ l₂) (hx' : x ∉ l₂') : l₁ = l₁' ∧ l₂ = l₂' := by
  induction l₁ generalizing l₁' with
  | nil =>
    cases l₁' with
    | nil => exact ⟨rfl, (List.cons_inj_right x).1 h⟩
    | cons y t =>
      rw [List.nil_append, List.cons_append, List.cons_eq_cons] at h
      exact (hx (by rw [h.2]; exact List.mem_append_right t List.mem_cons_self)).elim
  | cons y t ih =>
    cases l₁' with
    | nil =>
      rw [List.nil_append, List.cons_append, List.cons_eq_cons] at h
      exact (hx' (by rw [← h.2]; exact List.mem_append_right t List.mem_cons_self)).elim
    | cons y' t' =>
      rw [List.cons_append, List.cons_append, List.cons_eq_cons] at h
      obtain ⟨rfl, h⟩ := h
      obtain ⟨rfl, rfl⟩ := ih h
      exact ⟨rfl, rfl⟩

theorem slash_not_mem_toString (n : Nat) : '/' ∉ (toString n).toList := by
  intro h
  have hrepr : '/' ∈ (Nat.repr n).toList := h
  rw [Nat.toList_repr] at hrepr
  exact absurd (Nat.isDigit_of_mem_toDigits (by decide) (by decide) hrepr) (by decide)

theorem toList_egressKey (destChain : String) (index : Nat) :
    (egressKey destChain index).toList =
      ("egress/" ++ destChain).toList ++ '/' :: (toString index).toList := by
  simp [egressKey, String.toList_append]

theorem egressKey_inj {destChain destChain' : String} {index index' : Nat}
    (h : egressKey destChain index = egressKey destChain' index') :
    destChain = destChain' ∧ index = index' := by
  rw [← String.toList_inj, toList_egressKey, toList_egressKey] at h
  obtain ⟨hchain, hindex⟩ :=
    append_cons_inj_of_not_mem h (slash_not_mem_toString index) (slash_not_mem_toString index')
  rw [String.toList_inj, String.append_right_inj] at hchain
  rw [String.toList_inj] at hindex
  exact ⟨hchain, Nat.repr_inj.1 hindex⟩

theorem egressLengthKey_inj {destChain destChain' : String} :
    egressLengthKey destChain = egressLengthKey destChain' ↔ destChain = destChain' :=
  String.append_right_inj _

/-- The one collision of the key families: the packet `index` of `destChain` sits under the length key
of the chain `destChain/index`. -/
theorem egressKey_eq_egressLengthKey_iff {destChain destChain' : String} {index : Nat} :
    egressKey destChain index = egressLengthKey destChain' ↔
      destChain' = destChain ++ "/" ++ toString index := by
  rw [egressKey, egressLengthKey, String.append_assoc, String.append_assoc, String.append_right_inj,
    String.append_assoc, eq_comm]

theorem egressKey_ne_egressLengthKey (destChain : String) (index : Nat) :
    egressKey destChain index ≠ egressLengthKey destChain := by
  rw [Ne, egressKey_eq_egressLengthKey_iff]
  intro h
  have hlen := congrArg (fun s : String => s.toList.length) h
  simp [String.toList_append] at hlen

theorem ingressSequenceKey_inj {srcChain srcChain' : String} :
    ingressSequenceKey srcChain = ingressSequenceKey srcChain' ↔ srcChain = srcChain' :=
  String.append_right_inj _

/-- An ingress key starts with `i`, an egress key with `e`. -/
theorem ingressSequenceKey_ne_egressLengthKey (srcChain destChain : String) :
    ingressSequenceKey srcChain ≠ egressLengthKey destChain := by
  intro h
  have hhead := congrArg (fun s : String => s.toList.head?) h
  simp [ingressSequenceKey, egressLengthKey, String.toList_append] at hhead

theorem ingressSequenceKey_ne_egressKey (srcChain destChain : String) (index : Nat) :
    ingressSequenceKey srcChain ≠ egressKey destChain index := by
  intro h
  have hhead := congrArg (fun s : String => s.toList.head?) h
  simp [ingressSequenceKey, egressKey, String.toList_append] at hhead

/-! ### Packets, messages and the store -/

/-- `IBCPacket`. -/
structure IBCPacket where
  srcAddr : AccAddress
  destAddr : AccAddress
  coins : Coins
  srcChain : String
  destChain : String
  deriving DecidableEq

/-- `DefaultCodespace`. -/
def defaultCodespace : String := "ibc"

/-- `ErrInvalidSequence`, with `CodeInvalidSequence = 200` and its default message. -/
def errInvalidSequence (codespace : String) : Error := ⟨codespace, 200, "invalid IBC packet sequence"⟩

/-- `ErrIdenticalChains`, with `CodeIdenticalChains = 201` and its default message. -/
def errIdenticalChains (codespace : String) : Error :=
  ⟨codespace, 201, "source and destination chain cannot be identical"⟩

/-- `IBCPacket.ValidateBasic`; `ErrInvalidCoins("")` takes the default message of its code. -/
def IBCPacket.validateBasic (packet : IBCPacket) : Option Error :=
  if packet.srcChain = packet.destChain then some (errIdenticalChains defaultCodespace)
  else if !packet.coins.isValid then some (errInvalidCoins "invalid coins")
  else none

/-- The messages of the IBC handler: `MsgIBCTransfer` and `MsgIBCReceive`. -/
inductive Msg where
  | transfer (packet : IBCPacket)
  | receive (packet : IBCPacket) (relayer : AccAddress) (sequence : Nat)

/-- `ValidateBasic` of both messages: that of the packet. -/
def Msg.validateBasic : Msg → Option Error
  | .transfer packet => packet.validateBasic
  | .receive packet _ _ => packet.validateBasic

/-- What the codec wrote under a key: a packet, or a counter.  `int64(0)`, which the getters write, and
`uint64(0)` are both the byte `0x00`. -/
inductive Encoded where
  | packet (packet : IBCPacket)
  | counter (n : Nat)
  deriving DecidableEq

/-- The panic of `unmarshalBinaryPanic` reading a counter from a packet's bytes: amino's
`UnmarshalBinaryBare` leaves the bytes after the first field key unread, or finds no varint in an
empty struct. -/
def errUnmarshalCounter : Panic := .other "UnmarshalBinaryBare didn't read all the bytes"

/-- `unmarshalBinaryPanic` into a `uint64`. -/
def unmarshalCounter : Encoded → Except Panic Nat
  | .counter n => .ok n
  | .packet _ => .error errUnmarshalCounter

/-- The IBC mapper's store. -/
def Store := String → Option Encoded

/-- The store with no key set. -/
def Store.empty : Store := fun _ => none

/-- `Set`. -/
def Store.set (store : Store) (key : String) (value : Encoded) : Store :=
  fun k => if k = key then some value else store k

@[simp] theorem Store.set_apply (store : Store) (key k : String) (value : Encoded) :
    store.set key value k = if k = key then some value else store k := rfl

/-- The counter the getters read under a key: zero where the key is empty. -/
def readCounter : Option Encoded → Except Panic Nat
  | none => .ok 0
  | some bz => unmarshalCounter bz

@[simp] theorem readCounter_counter (n : Nat) : readCounter (some (.counter n)) = .ok n := rfl

/-- The store after a getter read `key`: a zero counter written where it was empty. -/
def Store.touch (store : Store) (key : String) : Store :=
  match store key with
  | none => store.set key (.counter 0)
  | some _ => store

theorem Store.touch_of_none {store : Store} {key : String} (h : store key = none) :
    store.touch key = store.set key (.counter 0) := by
  rw [Store.touch, h]

theorem Store.touch_of_some {store : Store} {key : String} {bz : Encoded} (h : store key = some bz) :
    store.touch key = store := by
  rw [Store.touch, h]

/-- Touching a key changes no counter that is read. -/
theorem Store.readCounter_touch (store : Store) (key k : String) :
    readCounter (store.touch key k) = readCounter (store k) := by
  cases hkey : store key with
  | none =>
    rw [Store.touch_of_none hkey, Store.set_apply]
    by_cases hk : k = key
    · rw [if_pos hk, hk, hkey]
      rfl
    · rw [if_neg hk]
  | some _ => rw [Store.touch_of_some hkey]

/-- Touching a key changes no value that is set. -/
theorem Store.touch_of_ne_none {store : Store} {k : String} (key : String) (h : store k ≠ none) :
    store.touch key k = store k := by
  cases hkey : store key with
  | none =>
    have hk : k ≠ key := fun hk => h (hk ▸ hkey)
    rw [Store.touch_of_none hkey, Store.set_apply, if_neg hk]
  | some _ => rw [Store.touch_of_some hkey]

/-! ### The mapper and the handler -/

/-- The state the handler runs on: the mapper's store and the bank's state. -/
structure State (β : Type) where
  ibc : Store
  bank : β

/-- A function of the mapper or the handler: it reads and writes the state and panics by `Except`. -/
abbrev IbcM (β α : Type) := StateT (State β) (Except Panic) α

/-- `BankKeeper` (`expected_keepers.go`): the coin functions the handler calls, on the bank's state;
the tags they return are not modelled. -/
structure BankKeeper (β : Type) where
  addCoins : AccAddress → Coins → StateT β (Except Panic) (Except Error Coins)
  subtractCoins : AccAddress → Coins → StateT β (Except Panic) (Except Error Coins)

/-- The bank module's keeper at a block time. -/
def bankKeeper (blockTime : Int) : BankKeeper Bank.State :=
  ⟨Bank.addCoins, Bank.subtractCoins blockTime⟩

variable {β α : Type}

/-- A bank call, on the bank's part of the state. -/
def liftBank (m : StateT β (Except Panic) α) : IbcM β α := fun s => do
  let (a, bank) ← m s.bank
  pure (a, { s with bank := bank })

/-- `store.Get`. -/
def getIbc (key : String) : IbcM β (Option Encoded) := return (← get).ibc key

/-- `store.Set`. -/
def setIbc (key : String) (value : Encoded) : IbcM β Unit :=
  modify fun s => { s with ibc := s.ibc.set key value }

/-- The read of `getEgressLength` and `GetIngressSequence`: a counter, written as zero where the key is
empty. -/
def getCounter (key : String) : IbcM β Nat := do
  match ← getIbc key with
  | none =>
    setIbc key (.counter 0)
    pure 0
  | some bz => unmarshalCounter bz

/-- `getEgressLength`. -/
def getEgressLength (destChain : String) : IbcM β Nat := getCounter (egressLengthKey destChain)

/-- `GetIngressSequence`. -/
def getIngressSequence (srcChain : String) : IbcM β Nat := getCounter (ingressSequenceKey srcChain)

/-- `SetIngressSequence`. -/
def setIngressSequence (srcChain : String) (sequence : Nat) : IbcM β Unit :=
  setIbc (ingressSequenceKey srcChain) (.counter sequence)

/-- `PostIBCPacket`; the error it returns is always nil. -/
def postIBCPacket (packet : IBCPacket) : IbcM β Unit := do
  let index ← getEgressLength packet.destChain
  setIbc (egressKey packet.destChain index) (.packet packet)
  setIbc (egressLengthKey packet.destChain) (.counter (index + 1))

/-- `handleIBCTransferMsg`. -/
def handleIBCTransferMsg (ck : BankKeeper β) (packet : IBCPacket) : IbcM β (Except Error Unit) := do
  match ← liftBank (ck.subtractCoins packet.srcAddr packet.coins) with
  | .error err => return .error err
  | .ok _ =>
    postIBCPacket packet
    return .ok ()

/-- `handleIBCReceiveMsg`; the codespace is the mapper's. -/
def handleIBCReceiveMsg (codespace : String) (ck : BankKeeper β) (packet : IBCPacket)
    (sequence : Nat) : IbcM β (Except Error Unit) := do
  let seq ← getIngressSequence packet.srcChain
  if sequence ≠ seq then return .error (errInvalidSequence codespace)
  match ← liftBank (ck.addCoins packet.destAddr packet.coins) with
  | .error err => return .error err
  | .ok _ =>
    setIngressSequence packet.srcChain (seq + 1)
    return .ok ()

/-- `NewHandler`. -/
def newHandler (codespace : String) (ck : BankKeeper β) : Msg → IbcM β (Except Error Unit)
  | .transfer packet => handleIBCTransferMsg ck packet
  | .receive packet _ sequence => handleIBCReceiveMsg codespace ck packet sequence

/-! ### What each function does to the store -/

theorem getIbc_bind {γ : Type} (key : String) (f : Option Encoded → IbcM β γ) (s : State β) :
    (getIbc key >>= f) s = f (s.ibc key) s := rfl

theorem liftBank_eq_ok {m : StateT β (Except Panic) α} {s s' : State β} {a : α} :
    liftBank m s = .ok (a, s') ↔ ∃ bank, m s.bank = .ok (a, bank) ∧ s' = { s with bank := bank } := by
  unfold liftBank
  cases m s.bank with
  | error e => simp [bind, Except.bind]
  | ok p =>
    obtain ⟨a', bank⟩ := p
    simp only [bind, Except.bind, pure, Except.pure, Except.ok.injEq, Prod.mk.injEq]
    constructor
    · rintro ⟨rfl, rfl⟩
      exact ⟨bank, ⟨rfl, rfl⟩, rfl⟩
    · rintro ⟨_, ⟨rfl, rfl⟩, rfl⟩
      exact ⟨rfl, rfl⟩

/-- `getCounter` reads the counter under `key` and touches the key. -/
theorem getCounter_eq (key : String) (s : State β) :
    getCounter key s = (readCounter (s.ibc key)).map fun n => (n, { s with ibc := s.ibc.touch key }) := by
  show (getIbc key >>= _) s = _
  rw [getIbc_bind]
  cases hkey : s.ibc key with
  | none =>
    rw [Store.touch_of_none hkey]
    rfl
  | some bz =>
    rw [Store.touch_of_some hkey]
    cases bz <;> rfl

theorem getCounter_eq_ok {key : String} {s s' : State β} {n : Nat} :
    getCounter key s = .ok (n, s') ↔
      readCounter (s.ibc key) = .ok n ∧ s' = { s with ibc := s.ibc.touch key } := by
  rw [getCounter_eq]
  cases readCounter (s.ibc key) with
  | error e => simp [Except.map]
  | ok m =>
    simp only [Except.map, Except.ok.injEq, Prod.mk.injEq]
    constructor
    · rintro ⟨rfl, rfl⟩
      exact ⟨rfl, rfl⟩
    · rintro ⟨rfl, rfl⟩
      exact ⟨rfl, rfl⟩

@[simp] theorem setIbc_eq_ok {key : String} {value : Encoded} {s s' : State β} {u : Unit} :
    setIbc key value s = .ok (u, s') ↔ s' = { s with ibc := s.ibc.set key value } :=
  modify_eq_ok

/-- The store after `PostIBCPacket` of `packet` read the length `index`. -/
def Store.post (store : Store) (packet : IBCPacket) (index : Nat) : Store :=
  ((store.touch (egressLengthKey packet.destChain)).set (egressKey packet.destChain index)
    (.packet packet)).set (egressLengthKey packet.destChain) (.counter (index + 1))

theorem postIBCPacket_eq_ok {packet : IBCPacket} {s s' : State β} {u : Unit} :
    postIBCPacket packet s = .ok (u, s') ↔ ∃ index,
      readCounter (s.ibc (egressLengthKey packet.destChain)) = .ok index ∧
        s' = { s with ibc := s.ibc.post packet index } := by
  simp only [postIBCPacket, getEgressLength, bind_eq_ok, getCounter_eq_ok, setIbc_eq_ok]
  constructor
  · rintro ⟨index, _, ⟨hindex, rfl⟩, _, _, rfl, rfl⟩
    exact ⟨index, hindex, rfl⟩
  · rintro ⟨index, hindex, rfl⟩
    exact ⟨index, _, ⟨hindex, rfl⟩, (), _, rfl, rfl⟩

/-- `PostIBCPacket` panics where the length of the queue is no counter. -/
theorem postIBCPacket_eq_error {packet : IBCPacket} {s : State β} {p : Panic}
    (h : readCounter (s.ibc (egressLengthKey packet.destChain)) = .error p) :
    postIBCPacket packet s = .error p := by
  have hget : getEgressLength packet.destChain s = .error p := by
    rw [getEgressLength, getCounter_eq, h]
    rfl
  exact bind_of_eq_error hget

/-- A transfer whose bank call succeeds posts the packet at the length of its queue, or panics where
that length is no counter. -/
theorem handleIBCTransferMsg_of_subtractCoins {ck : BankKeeper β} {packet : IBCPacket}
    {s : State β} {coins : Coins} {bank : β}
    (hbank : ck.subtractCoins packet.srcAddr packet.coins s.bank = .ok (.ok coins, bank)) :
    handleIBCTransferMsg ck packet s = (readCounter (s.ibc (egressLengthKey packet.destChain))).map
      fun index => (.ok (), ⟨s.ibc.post packet index, bank⟩) := by
  have hlift : liftBank (ck.subtractCoins packet.srcAddr packet.coins) s =
      .ok (.ok coins, { s with bank := bank }) := liftBank_eq_ok.2 ⟨bank, hbank, rfl⟩
  rw [handleIBCTransferMsg, bind_of_eq_ok hlift]
  dsimp only
  cases hread : readCounter (s.ibc (egressLengthKey packet.destChain)) with
  | error p =>
    have hread' : readCounter (({ s with bank := bank } : State β).ibc
        (egressLengthKey packet.destChain)) = .error p := hread
    rw [bind_of_eq_error (postIBCPacket_eq_error hread')]
    rfl
  | ok index =>
    have hpost : postIBCPacket packet ({ s with bank := bank } : State β) =
        .ok ((), ⟨s.ibc.post packet index, bank⟩) := postIBCPacket_eq_ok.2 ⟨index, hread, rfl⟩
    rw [bind_of_eq_ok hpost]
    rfl

/-- A transfer that returns: an error of the bank, which leaves the store alone, or the packet posted. -/
theorem handleIBCTransferMsg_eq_ok {ck : BankKeeper β} {packet : IBCPacket} {s s' : State β}
    {r : Except Error Unit} (h : handleIBCTransferMsg ck packet s = .ok (r, s')) :
    (∃ err, r = .error err ∧ s'.ibc = s.ibc) ∨
      (r = .ok () ∧ ∃ index, readCounter (s.ibc (egressLengthKey packet.destChain)) = .ok index ∧
        s'.ibc = s.ibc.post packet index) := by
  obtain ⟨res, s₁, hbank, h⟩ := bind_eq_ok.1 h
  obtain ⟨bank, -, rfl⟩ := liftBank_eq_ok.1 hbank
  cases res with
  | error err =>
    obtain ⟨rfl, rfl⟩ := pure_eq_ok.1 h
    exact .inl ⟨err, rfl, rfl⟩
  | ok _ =>
    obtain ⟨u, s₂, hpost, h⟩ := bind_eq_ok.1 h
    obtain ⟨rfl, rfl⟩ := pure_eq_ok.1 h
    obtain ⟨index, hindex, rfl⟩ := postIBCPacket_eq_ok.1 hpost
    exact .inr ⟨rfl, index, hindex, rfl⟩

/-- A receive that returns: it read the ingress count and touched its key; it counts the packet
exactly when it succeeds, and it succeeds only for the message whose sequence is the count. -/
theorem handleIBCReceiveMsg_eq_ok {codespace : String} {ck : BankKeeper β} {packet : IBCPacket}
    {sequence : Nat} {s s' : State β} {r : Except Error Unit}
    (h : handleIBCReceiveMsg codespace ck packet sequence s = .ok (r, s')) :
    ∃ seq, readCounter (s.ibc (ingressSequenceKey packet.srcChain)) = .ok seq ∧
      ((∃ err, r = .error err ∧ s'.ibc = s.ibc.touch (ingressSequenceKey packet.srcChain)) ∨
        (r = .ok () ∧ sequence = seq ∧ s'.ibc = (s.ibc.touch (ingressSequenceKey packet.srcChain)).set
          (ingressSequenceKey packet.srcChain) (.counter (seq + 1)))) := by
  obtain ⟨seq, s₁, hseq, h⟩ := bind_eq_ok.1 h
  obtain ⟨hread, rfl⟩ := getCounter_eq_ok.1 hseq
  refine ⟨seq, hread, ?_⟩
  by_cases hne : sequence = seq
  · rw [if_neg (not_not.2 hne)] at h
    obtain ⟨res, s₂, hbank, h⟩ := bind_eq_ok.1 h
    obtain ⟨bank, -, rfl⟩ := liftBank_eq_ok.1 hbank
    cases res with
    | error err =>
      obtain ⟨rfl, rfl⟩ := pure_eq_ok.1 h
      exact .inl ⟨err, rfl, rfl⟩
    | ok _ =>
      obtain ⟨u, s₃, hset, h⟩ := bind_eq_ok.1 h
      obtain ⟨rfl, rfl⟩ := pure_eq_ok.1 h
      exact .inr ⟨rfl, hne, congrArg State.ibc (setIbc_eq_ok.1 hset)⟩
  · rw [if_pos hne] at h
    obtain ⟨rfl, rfl⟩ := pure_eq_ok.1 h
    exact .inl ⟨_, rfl, rfl⟩

end CosmosSdk.Ibc
