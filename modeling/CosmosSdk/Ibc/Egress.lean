import CosmosSdk.Ibc.Handler

/-!
# What the IBC store holds over a run

A run's successful messages, kept as a ledger beside the store (`Ledger`): for each chain, the packets
posted to it in order and the number of packets received from it.  `step` runs one message as `runTx`
does, keeping its writes only when it succeeds, and records a success in the ledger.

Over a set `D` of destination chains none of which is `c/i` for another chain `c` of `D` (`NoNesting`),
the store holds the ledger after every run whose transfers go to `D` (`Holds`, `holds_run`): the posted
packets under their egress keys, their number under the length key and the count of received packets
under the ingress key; and a receive succeeds only with the sequence the ledger counts
(`sequence_of_receive_ok`).  Without the condition a transfer to `c` overwrites the length counter of the
chain `c/0` (`transfer_overwrites_egress_length`).
-/

namespace CosmosSdk.Ibc

open CosmosSdk.Types CosmosSdk.Auth StateExcept

/-! ### The ledger and the run -/

/-- The packets a run posted to each chain, in order, and the number it received from each. -/
structure Ledger where
  egress : String → List IBCPacket
  received : String → Nat

/-- The ledger of the empty run. -/
def Ledger.empty : Ledger := ⟨fun _ => [], fun _ => 0⟩

/-- The ledger after a message succeeded. -/
def Ledger.apply (L : Ledger) : Msg → Ledger
  | .transfer packet =>
    { L with egress := Function.update L.egress packet.destChain (L.egress packet.destChain ++ [packet]) }
  | .receive packet _ _ =>
    { L with received := Function.update L.received packet.srcChain (L.received packet.srcChain + 1) }

variable {β : Type} (codespace : String) (ck : BankKeeper β)

/-- One message as `runTx` delivers it: its writes are kept and the ledger records it when it succeeds;
an error or a panic changes nothing. -/
def step (msg : Msg) (sl : State β × Ledger) : State β × Ledger :=
  match newHandler codespace ck msg sl.1 with
  | .ok (.ok (), s') => (s', sl.2.apply msg)
  | _ => sl

/-- A run of messages. -/
def run (msgs : List Msg) (sl : State β × Ledger) : State β × Ledger :=
  msgs.foldl (fun sl msg => step codespace ck msg sl) sl

/-! ### The store holds the ledger -/

/-- No chain of `D` is `c/i` for a chain `c` of `D`. -/
def NoNesting (D : Set String) : Prop := ∀ c ∈ D, ∀ i : Nat, c ++ "/" ++ toString i ∉ D

/-- A transfer's destination chain lies in `D`. -/
def Msg.GoesTo (D : Set String) : Msg → Prop
  | .transfer packet => packet.destChain ∈ D
  | .receive _ _ _ => True

/-- The store holds the ledger: each chain of `D` has its posted packets under its egress keys and
their number under its length key, and each chain's ingress key counts the packets received from it. -/
structure Holds (D : Set String) (L : Ledger) (store : Store) : Prop where
  packet : ∀ c ∈ D, ∀ i (hi : i < (L.egress c).length),
    store (egressKey c i) = some (.packet (L.egress c)[i])
  length : ∀ c ∈ D, readCounter (store (egressLengthKey c)) = .ok (L.egress c).length
  ingress : ∀ c, readCounter (store (ingressSequenceKey c)) = .ok (L.received c)

theorem holds_empty (D : Set String) : Holds D Ledger.empty Store.empty :=
  ⟨fun _ _ _ hi => absurd hi (Nat.not_lt_zero _), fun _ _ => rfl, fun _ => rfl⟩

variable {D : Set String} {L : Ledger} {store : Store}

/-- A getter's zero write keeps the ledger held. -/
theorem Holds.touch (h : Holds D L store) (key : String) : Holds D L (store.touch key) where
  packet c hc i hi := by
    rw [Store.touch_of_ne_none key (by rw [h.packet c hc i hi]; exact Option.some_ne_none _)]
    exact h.packet c hc i hi
  length c hc := by rw [Store.readCounter_touch]; exact h.length c hc
  ingress c := by rw [Store.readCounter_touch]; exact h.ingress c

/-- `PostIBCPacket` to a chain of `D` appends the packet to its queue. -/
theorem Holds.post (h : Holds D L store) (hD : NoNesting D) {packet : IBCPacket}
    (hc : packet.destChain ∈ D) {index : Nat}
    (hindex : readCounter (store (egressLengthKey packet.destChain)) = .ok index) :
    Holds D (L.apply (.transfer packet)) (store.post packet index) := by
  have hlen : index = (L.egress packet.destChain).length :=
    Except.ok.inj (hindex.symm.trans (h.length _ hc))
  have ht := h.touch (egressLengthKey packet.destChain)
  refine ⟨fun c hc' i hi => ?_, fun c hc' => ?_, fun c => ?_⟩
  · -- a packet key of `D` is no length key of `D`, and the new packet's only where it was put
    have hne : egressKey c i ≠ egressLengthKey packet.destChain := fun heq =>
      hD c hc' i (egressKey_eq_egressLengthKey_iff.1 heq ▸ hc)
    rw [Store.post, Store.set_apply, if_neg hne, Store.set_apply]
    by_cases hdest : c = packet.destChain
    · subst hdest
      simp only [Ledger.apply, Function.update_self, List.length_append, List.length_singleton] at hi ⊢
      by_cases hi' : i = index
      · subst hi'
        rw [if_pos rfl, List.getElem_append_right (by omega)]
        simp [hlen]
      · rw [if_neg fun heq => hi' (egressKey_inj heq).2, List.getElem_append_left (by omega)]
        exact ht.packet _ hc i (by omega)
    · simp only [Ledger.apply, Function.update_of_ne hdest] at hi ⊢
      rw [if_neg fun heq => hdest (egressKey_inj heq).1]
      exact ht.packet c hc' i hi
  · rw [Store.post, Store.set_apply]
    by_cases hdest : c = packet.destChain
    · subst hdest
      rw [if_pos rfl, readCounter_counter]
      simp [Ledger.apply, hlen]
    · -- the length key of another chain of `D` is no packet key of `packet.destChain`
      have hne : egressLengthKey c ≠ egressKey packet.destChain index := fun heq =>
        hD _ hc index (egressKey_eq_egressLengthKey_iff.1 heq.symm ▸ hc')
      rw [if_neg fun heq => hdest (egressLengthKey_inj.1 heq), Store.set_apply, if_neg hne]
      simp only [Ledger.apply, Function.update_of_ne hdest]
      exact ht.length c hc'
  · rw [Store.post, Store.set_apply, if_neg (ingressSequenceKey_ne_egressLengthKey _ _),
      Store.set_apply, if_neg (ingressSequenceKey_ne_egressKey _ _ _)]
    exact ht.ingress c

/-- A successful receive counts the packet under its source chain's ingress key. -/
theorem Holds.receive (h : Holds D L store) {packet : IBCPacket} (relayer : AccAddress)
    (sequence : Nat) {seq : Nat} (hseq : readCounter (store (ingressSequenceKey packet.srcChain)) = .ok seq) :
    Holds D (L.apply (.receive packet relayer sequence))
      ((store.touch (ingressSequenceKey packet.srcChain)).set (ingressSequenceKey packet.srcChain)
        (.counter (seq + 1))) := by
  have hcount : seq = L.received packet.srcChain := Except.ok.inj (hseq.symm.trans (h.ingress _))
  have ht := h.touch (ingressSequenceKey packet.srcChain)
  refine ⟨fun c hc i hi => ?_, fun c hc => ?_, fun c => ?_⟩
  · rw [Store.set_apply, if_neg (ingressSequenceKey_ne_egressKey _ _ _).symm]
    exact ht.packet c hc i hi
  · rw [Store.set_apply, if_neg (ingressSequenceKey_ne_egressLengthKey _ _).symm]
    exact ht.length c hc
  · rw [Store.set_apply]
    by_cases hsrc : c = packet.srcChain
    · subst hsrc
      rw [if_pos rfl, readCounter_counter]
      simp [Ledger.apply, hcount]
    · rw [if_neg fun heq => hsrc (ingressSequenceKey_inj.1 heq)]
      simp only [Ledger.apply, Function.update_of_ne hsrc]
      exact ht.ingress c

/-- A receive succeeds only with the sequence the ledger counts for its source chain. -/
theorem sequence_of_receive_ok (h : Holds D L store) {s s' : State β} (hs : s.ibc = store)
    {packet : IBCPacket} {relayer : AccAddress} {sequence : Nat}
    (hrun : newHandler codespace ck (.receive packet relayer sequence) s = .ok (.ok (), s')) :
    sequence = L.received packet.srcChain := by
  obtain ⟨seq, hseq, ⟨_, hr, -⟩ | ⟨-, rfl, -⟩⟩ := handleIBCReceiveMsg_eq_ok hrun
  · cases hr
  · rw [hs] at hseq
    exact Except.ok.inj (hseq.symm.trans (h.ingress _))

/-- One step keeps the ledger held. -/
theorem holds_step (hD : NoNesting D) {msg : Msg} (hmsg : msg.GoesTo D) {sl : State β × Ledger}
    (h : Holds D sl.2 sl.1.ibc) :
    Holds D (step codespace ck msg sl).2 (step codespace ck msg sl).1.ibc := by
  unfold step
  split
  · rename_i s' hrun
    cases msg with
    | transfer packet =>
      rcases handleIBCTransferMsg_eq_ok hrun with ⟨_, hr, -⟩ | ⟨-, index, hindex, hs'⟩
      · cases hr
      · rw [hs']
        exact h.post hD hmsg hindex
    | receive packet relayer sequence =>
      obtain ⟨seq, hseq, ⟨_, hr, -⟩ | ⟨-, -, hs'⟩⟩ := handleIBCReceiveMsg_eq_ok hrun
      · cases hr
      · rw [hs']
        exact h.receive relayer sequence hseq
  · exact h

/-- Every run whose transfers go to `D` keeps the ledger held. -/
theorem holds_run (hD : NoNesting D) {msgs : List Msg} (hmsgs : ∀ msg ∈ msgs, msg.GoesTo D)
    {sl : State β × Ledger} (h : Holds D sl.2 sl.1.ibc) :
    Holds D (run codespace ck msgs sl).2 (run codespace ck msgs sl).1.ibc := by
  induction msgs generalizing sl with
  | nil => exact h
  | cons msg msgs ih =>
    exact ih (fun m hm => hmsgs m (List.mem_cons_of_mem _ hm))
      (holds_step codespace ck hD (hmsgs msg List.mem_cons_self) h)

/-- Over destination chains none of which nests another, every run from the empty store keeps under the
mapper's keys exactly what its successful messages posted and received, and a receive succeeds only with
the sequence counted so far. -/
theorem ibc_store_holds_ledger (hD : NoNesting D) :
    (∀ (msgs : List Msg) (bank : β), (∀ msg ∈ msgs, msg.GoesTo D) →
      Holds D (run codespace ck msgs (⟨Store.empty, bank⟩, Ledger.empty)).2
        (run codespace ck msgs (⟨Store.empty, bank⟩, Ledger.empty)).1.ibc) ∧
    (∀ (L : Ledger) (s s' : State β) (packet : IBCPacket) (relayer : AccAddress) (sequence : Nat),
      Holds D L s.ibc → newHandler codespace ck (.receive packet relayer sequence) s = .ok (.ok (), s') →
      sequence = L.received packet.srcChain) :=
  ⟨fun _ _ hmsgs => holds_run codespace ck hD hmsgs (holds_empty D),
    fun _ _ _ _ _ _ h hrun => sequence_of_receive_ok codespace ck h rfl hrun⟩

theorem noNesting_xy : NoNesting {"x", "y"} := by
  intro c hc i hmem
  simp only [Set.mem_insert_iff, Set.mem_singleton_iff] at hc hmem
  rcases hc with rfl | rfl <;> rcases hmem with h | h <;>
    · have hlen := congrArg (fun s : String => s.toList.length) h
      simp [String.toList_append] at hlen

/-- One transfer to `x` from the empty store, with the bank module's keeper. -/
theorem ibc_store_holds_ledger_xy :
    Holds {"x", "y"}
      (run defaultCodespace (bankKeeper 0) [.transfer ⟨[1], [2], [], "a", "x"⟩]
        (⟨Store.empty, ⟨Auth.Store.empty, true⟩⟩, Ledger.empty)).2
      (run defaultCodespace (bankKeeper 0) [.transfer ⟨[1], [2], [], "a", "x"⟩]
        (⟨Store.empty, ⟨Auth.Store.empty, true⟩⟩, Ledger.empty)).1.ibc :=
  (ibc_store_holds_ledger defaultCodespace (bankKeeper 0) noNesting_xy).1 _ _ fun msg hmsg => by
    rw [List.mem_singleton] at hmsg
    subst hmsg
    exact Set.mem_insert _ _

/-! ### Nested chain ids -/

/-- Accounts `[1]`, `[3]` and `[4]`, each holding `5atom`. -/
def fundedBank : Bank.State :=
  ⟨((Auth.Store.empty.setAccount (.base ⟨[1], [⟨"atom", 5⟩], none, 0, 0⟩)).setAccount
    (.base ⟨[3], [⟨"atom", 5⟩], none, 0, 0⟩)).setAccount (.base ⟨[4], [⟨"atom", 5⟩], none, 0, 0⟩), true⟩

/-- A packet of `1atom` from `src` on chain `a` to `[2]` on `chain`. -/
def atomTo (src : AccAddress) (chain : String) : IBCPacket := ⟨src, [2], [⟨"atom", 1⟩], "a", chain⟩

/-- Funded transfers of `1atom` to `x/0` and then to `x` from an empty store, both passing
`ValidateBasic`: the packet to `x` lands under the length key of `x/0`, and the next transfer to `x/0`
panics. -/
theorem transfer_overwrites_egress_length :
    (Msg.transfer (atomTo [1] "x/0")).validateBasic = none ∧
    (Msg.transfer (atomTo [3] "x")).validateBasic = none ∧
    ∃ s₁ s₂, newHandler defaultCodespace (bankKeeper 0) (.transfer (atomTo [1] "x/0"))
        ⟨Store.empty, fundedBank⟩ = .ok (.ok (), s₁) ∧
      newHandler defaultCodespace (bankKeeper 0) (.transfer (atomTo [3] "x")) s₁ = .ok (.ok (), s₂) ∧
      s₂.ibc (egressLengthKey "x/0") = some (.packet (atomTo [3] "x")) ∧
      newHandler defaultCodespace (bankKeeper 0) (.transfer (atomTo [4] "x/0")) s₂ =
        .error errUnmarshalCounter := by
  -- the three transfers run in the kernel, each on the state the one before it left
  have hcheck : checkOk (newHandler defaultCodespace (bankKeeper 0) (.transfer (atomTo [1] "x/0"))
      ⟨Store.empty, fundedBank⟩) (fun r₁ => r₁.1.isOk &&
        checkOk (newHandler defaultCodespace (bankKeeper 0) (.transfer (atomTo [3] "x")) r₁.2) fun r₂ =>
          r₂.1.isOk && decide (r₂.2.ibc (egressLengthKey "x/0") = some (.packet (atomTo [3] "x"))) &&
          checkError (newHandler defaultCodespace (bankKeeper 0) (.transfer (atomTo [4] "x/0")) r₂.2)
            (· == errUnmarshalCounter)) = true := by
    decide +kernel
  obtain ⟨⟨res₁, s₁⟩, h₁, hcheck⟩ := exists_eq_ok_of_checkOk hcheck
  rw [Bool.and_eq_true] at hcheck
  obtain ⟨hok₁, hcheck⟩ := hcheck
  obtain ⟨⟨res₂, s₂⟩, h₂, hcheck⟩ := exists_eq_ok_of_checkOk hcheck
  simp only [Bool.and_eq_true, decide_eq_true_eq] at hcheck
  obtain ⟨⟨hok₂, hkey⟩, hpanic⟩ := hcheck
  obtain ⟨p, h₃, hp⟩ := exists_eq_error_of_checkError hpanic
  obtain rfl : res₁ = .ok () := eq_ok_unit_of_isOk hok₁
  obtain rfl : res₂ = .ok () := eq_ok_unit_of_isOk hok₂
  refine ⟨rfl, rfl, s₁, s₂, h₁, h₂, hkey, ?_⟩
  rw [h₃, beq_iff_eq.1 hp]

end CosmosSdk.Ibc
