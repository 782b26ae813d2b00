import Mathlib.Order.Defs.Unbundled

/-!
# Runs of state-and-exception programs

Programs of `StateT σ (Except ε)` read and write a state and may stop with an exception.  A run from
a state either stops or returns a value and a final state; the lemmas here take a run that returns
apart along the program's binds, so that a program's spec is read off its code step by step.

* `bind_eq_ok`: a run of `x >>= f` that returns is a run of `x` followed by a run of `f`
  (`except_bind_eq_ok` for `Except` alone; `mapM_eq_ok` for a map whose every call returns).
* `Guarantees R x`: every run of `x` that returns ends in a state related to its start by `R`.  It
  holds of `pure`, of a lifted exception computation and of `throw` when `R` is reflexive, and it
  composes along `>>=` and over the iterations of `List.forM` and `List.mapM` when `R` is transitive.
* `Triple P x Q`: every run of `x` that returns, from a state satisfying `P`, returns some `a` in a
  state satisfying `Q a`: a Hoare triple of partial correctness, an exception counting as no run.
  The rules follow the program's shape: `Triple.bind`, `Triple.pure`, `Triple.lift`, `Triple.ite`,
  `Triple.modify`, `Triple.get`, `Triple.forM` for loops, and `Triple.conseq` to weaken;
  `Triple.lift_bind` hands the value of a lifted computation on with its equation.
* `Chain step l s s'`: one step for each element of `l`, in order, from `s` to `s'`.  A run of
  `l.forM f` that returns is the chain of the runs of `f` on the elements (`forM_chain`); a view of
  the state that each step maps by `g` is mapped by the fold of `g` (`Chain.foldl`).
-/

namespace StateExcept

variable {σ ε α β : Type}

theorem except_ok_bind {a : α} {f : α → Except ε β} : (Except.ok a >>= f) = f a := rfl

theorem except_pure {a : α} : (pure a : Except ε α) = .ok a := rfl

theorem except_bind_eq_ok {x : Except ε α} {f : α → Except ε β} {b : β} :
    (x >>= f) = .ok b ↔ ∃ a, x = .ok a ∧ f a = .ok b := by
  cases x <;> simp [bind, Except.bind]

/-- A run whose result evaluates to OK has a value. -/
theorem exists_eq_ok_of_isOk {x : Except ε α} (h : x.isOk = true) : ∃ a, x = .ok a := by
  cases x with
  | error e => cases h
  | ok a => exact ⟨a, rfl⟩

/-- A result without a value that evaluates to OK is OK. -/
theorem eq_ok_unit_of_isOk {x : Except ε Unit} (h : x.isOk = true) : x = .ok () := by
  cases x with
  | error e => cases h
  | ok u => rfl

/-- Whether a run returns a value of which `p` holds: a property of a run that the kernel can
evaluate. -/
def checkOk (x : Except ε α) (p : α → Bool) : Bool :=
  match x with
  | .ok a => p a
  | .error _ => false

/-- Whether a run stops with an exception of which `p` holds. -/
def checkError (x : Except ε α) (p : ε → Bool) : Bool :=
  match x with
  | .ok _ => false
  | .error e => p e

theorem exists_eq_ok_of_checkOk {x : Except ε α} {p : α → Bool} (h : checkOk x p = true) :
    ∃ a, x = .ok a ∧ p a = true := by
  cases x with
  | error e => cases h
  | ok a => exact ⟨a, rfl, h⟩

theorem exists_eq_error_of_checkError {x : Except ε α} {p : ε → Bool} (h : checkError x p = true) :
    ∃ e, x = .error e ∧ p e = true := by
  cases x with
  | error e => exact ⟨e, rfl, h⟩
  | ok a => cases h

theorem except_bind_of_eq_error {x : Except ε α} {f : α → Except ε β} {e : ε} (h : x = .error e) :
    (x >>= f) = .error e := by
  rw [h]
  rfl

/-- A map whose every call returns: the map of what each call returns. -/
theorem mapM_eq_ok {l : List α} {f : α → Except ε β} {g : α → β} (h : ∀ a ∈ l, f a = .ok (g a)) :
    l.mapM f = .ok (l.map g) := by
  induction l with
  | nil => rfl
  | cons a l ih =>
    rw [List.mapM_cons, h a List.mem_cons_self, except_ok_bind,
      ih fun b hb => h b (List.mem_cons_of_mem _ hb)]
    rfl

theorem bind_eq_ok {x : StateT σ (Except ε) α} {f : α → StateT σ (Except ε) β} {s s' : σ} {b : β} :
    (x >>= f) s = .ok (b, s') ↔ ∃ a s₁, x s = .ok (a, s₁) ∧ f a s₁ = .ok (b, s') := by
  show (x s >>= fun p => f p.1 p.2) = _ ↔ _
  cases x s with
  | error e => simp [bind, Except.bind]
  | ok p =>
    obtain ⟨a, s₁⟩ := p
    simp only [bind, Except.bind, Except.ok.injEq, Prod.mk.injEq]
    exact ⟨fun h => ⟨a, s₁, ⟨rfl, rfl⟩, h⟩, fun ⟨_, _, ⟨ha, hs⟩, h⟩ => ha ▸ hs ▸ h⟩

/-- A run of `x >>= f` from a state where `x` returns goes on as `f` does. -/
theorem bind_of_eq_ok {x : StateT σ (Except ε) α} {f : α → StateT σ (Except ε) β} {s s' : σ} {a : α}
    (h : x s = .ok (a, s')) : (x >>= f) s = f a s' := by
  show (x s >>= fun p => f p.1 p.2) = _
  rw [h]
  rfl

/-- A run of `x >>= f` from a state where `x` panics panics alike. -/
theorem bind_of_eq_error {x : StateT σ (Except ε) α} {f : α → StateT σ (Except ε) β} {s : σ} {e : ε}
    (h : x s = .error e) : (x >>= f) s = .error e := by
  show (x s >>= fun p => f p.1 p.2) = _
  rw [h]
  rfl

theorem lift_ok_bind {a : α} {f : α → StateT σ (Except ε) β} {s : σ} :
    (liftM (Except.ok a : Except ε α) >>= f) s = f a s := rfl

theorem lift_error_bind {e : ε} {f : α → StateT σ (Except ε) β} {s : σ} :
    (liftM (Except.error e : Except ε α) >>= f) s = .error e := rfl

@[simp] theorem pure_eq_ok {a b : α} {s s' : σ} :
    (pure a : StateT σ (Except ε) α) s = .ok (b, s') ↔ a = b ∧ s = s' := by
  show Except.ok (a, s) = _ ↔ _
  simp

@[simp] theorem lift_eq_ok {x : Except ε α} {a : α} {s s' : σ} :
    (liftM x : StateT σ (Except ε) α) s = .ok (a, s') ↔ x = .ok a ∧ s = s' := by
  show (x >>= fun a => pure (a, s)) = _ ↔ _
  cases x <;> simp [bind, Except.bind, pure, Except.pure, eq_comm]

/-- A lifted computation leaves the state alone: the run goes on from the same state. -/
theorem lift_bind_eq_ok {x : Except ε α} {f : α → StateT σ (Except ε) β} {b : β} {s s' : σ} :
    ((liftM x : StateT σ (Except ε) α) >>= f) s = .ok (b, s') ↔ ∃ a, x = .ok a ∧ f a s = .ok (b, s') := by
  rw [bind_eq_ok]
  constructor
  · rintro ⟨a, s₁, h₁, h⟩
    obtain ⟨hx, rfl⟩ := lift_eq_ok.1 h₁
    exact ⟨a, hx, h⟩
  · rintro ⟨a, hx, h⟩
    exact ⟨a, s, lift_eq_ok.2 ⟨hx, rfl⟩, h⟩

@[simp] theorem throw_ne_ok {e : ε} {a : α} {s s' : σ} :
    ¬ (throw e : StateT σ (Except ε) α) s = .ok (a, s') := by
  show ¬ (Except.error e >>= fun a => pure (a, s)) = _
  simp [bind, Except.bind]

@[simp] theorem throw_bind_ne_ok {e : ε} {f : α → StateT σ (Except ε) β} {b : β} {s s' : σ} :
    ¬ (throw e >>= f) s = .ok (b, s') := by
  rw [bind_eq_ok]
  rintro ⟨_, _, h, -⟩
  exact throw_ne_ok h

@[simp] theorem get_eq_ok {s s' a : σ} :
    (get : StateT σ (Except ε) σ) s = .ok (a, s') ↔ s = a ∧ s = s' := by
  show Except.ok (s, s) = _ ↔ _
  simp

@[simp] theorem modify_eq_ok {f : σ → σ} {s s' : σ} {u : PUnit} :
    (modify f : StateT σ (Except ε) PUnit) s = .ok (u, s') ↔ s' = f s := by
  show Except.ok (PUnit.unit, f s) = _ ↔ _
  simp [eq_comm]

/-! ### Guarantees -/

/-- Every run of `x` that returns ends in a state related to its start by `R`. -/
def Guarantees (R : σ → σ → Prop) (x : StateT σ (Except ε) α) : Prop :=
  ∀ s a s', x s = .ok (a, s') → R s s'

variable {R : σ → σ → Prop}

theorem Guarantees.pure [Std.Refl R] (a : α) : Guarantees R (pure a : StateT σ (Except ε) α) := by
  intro s b s' h
  rw [pure_eq_ok] at h
  rw [← h.2]
  exact Std.Refl.refl s

theorem Guarantees.lift [Std.Refl R] (x : Except ε α) :
    Guarantees R (liftM x : StateT σ (Except ε) α) := by
  intro s b s' h
  rw [lift_eq_ok] at h
  rw [← h.2]
  exact Std.Refl.refl s

theorem Guarantees.throw (e : ε) : Guarantees R (throw e : StateT σ (Except ε) α) :=
  fun _ _ _ h => absurd h throw_ne_ok

/-- An early exit by an exception: the rest of the program never runs. -/
theorem Guarantees.throw_bind (e : ε) {f : α → StateT σ (Except ε) β} :
    Guarantees R (MonadExcept.throw e >>= f) :=
  fun _ _ _ h => absurd h throw_bind_ne_ok

theorem Guarantees.bind [IsTrans σ R] {x : StateT σ (Except ε) α} {f : α → StateT σ (Except ε) β}
    (hx : Guarantees R x) (hf : ∀ a, Guarantees R (f a)) : Guarantees R (x >>= f) := by
  intro s b s' h
  obtain ⟨a, s₁, h₁, h₂⟩ := bind_eq_ok.1 h
  exact IsTrans.trans _ _ _ (hx s a s₁ h₁) (hf a s₁ b s' h₂)

/-- A run of `x >>= f` whose `x` guarantees `R` is a step related by `R` followed by a run of `f`. -/
theorem Guarantees.run_bind {x : StateT σ (Except ε) α} {f : α → StateT σ (Except ε) β} {s s' : σ}
    {b : β} (hx : Guarantees R x) (h : (x >>= f) s = .ok (b, s')) :
    ∃ a s₁, R s s₁ ∧ f a s₁ = .ok (b, s') := by
  obtain ⟨a, s₁, h₁, h₂⟩ := bind_eq_ok.1 h
  exact ⟨a, s₁, hx s a s₁ h₁, h₂⟩

theorem Guarantees.ite [Std.Refl R] {c : Prop} [Decidable c] {x y : StateT σ (Except ε) α}
    (hx : c → Guarantees R x) (hy : ¬ c → Guarantees R y) : Guarantees R (if c then x else y) := by
  by_cases hc : c
  · rw [if_pos hc]
    exact hx hc
  · rw [if_neg hc]
    exact hy hc

theorem Guarantees.mono {R' : σ → σ → Prop} {x : StateT σ (Except ε) α} (h : Guarantees R x)
    (hR : ∀ s s', R s s' → R' s s') : Guarantees R' x :=
  fun s a s' hx => hR s s' (h s a s' hx)

theorem Guarantees.forM [Std.Refl R] [IsTrans σ R] {l : List α} {f : α → StateT σ (Except ε) PUnit}
    (hf : ∀ a ∈ l, Guarantees R (f a)) : Guarantees R (l.forM f) := by
  induction l with
  | nil => exact Guarantees.pure _
  | cons a l ih =>
    show Guarantees R (f a >>= fun _ => l.forM f)
    exact (hf a List.mem_cons_self).bind fun _ =>
      ih fun b hb => hf b (List.mem_cons_of_mem a hb)

theorem Guarantees.mapM [Std.Refl R] [IsTrans σ R] {l : List α} {f : α → StateT σ (Except ε) β}
    (hf : ∀ a ∈ l, Guarantees R (f a)) : Guarantees R (l.mapM f) := by
  induction l with
  | nil => exact Guarantees.pure _
  | cons a l ih =>
    rw [List.mapM_cons]
    exact (hf a List.mem_cons_self).bind fun _ =>
      (ih fun b hb => hf b (List.mem_cons_of_mem a hb)).bind fun _ => Guarantees.pure _

/-! ### Triples -/

/-- Every run of `x` that returns, from a state satisfying `P`, returns some `a` in a state
satisfying `Q a`. -/
def Triple (P : σ → Prop) (x : StateT σ (Except ε) α) (Q : α → σ → Prop) : Prop :=
  ∀ s a s', P s → x s = .ok (a, s') → Q a s'

variable {P P' : σ → Prop} {Q Q' : α → σ → Prop}

theorem Triple.bind {x : StateT σ (Except ε) α} {f : α → StateT σ (Except ε) β}
    {S : β → σ → Prop} (hx : Triple P x Q) (hf : ∀ a, Triple (Q a) (f a) S) :
    Triple P (x >>= f) S := by
  intro s b s' hs h
  obtain ⟨a, s₁, h₁, h₂⟩ := bind_eq_ok.1 h
  exact hf a s₁ b s' (hx s a s₁ hs h₁) h₂

theorem Triple.pure {a : α} (h : ∀ s, P s → Q a s) :
    Triple P (pure a : StateT σ (Except ε) α) Q := by
  intro s b s' hs hrun
  obtain ⟨rfl, rfl⟩ := pure_eq_ok.1 hrun
  exact h s hs

theorem Triple.lift {x : Except ε α} (h : ∀ s a, P s → x = .ok a → Q a s) :
    Triple P (liftM x : StateT σ (Except ε) α) Q := by
  intro s a s' hs hrun
  obtain ⟨hx, rfl⟩ := lift_eq_ok.1 hrun
  exact h s a hs hx

theorem Triple.throw (e : ε) : Triple P (throw e : StateT σ (Except ε) α) Q :=
  fun _ _ _ _ h => absurd h throw_ne_ok

theorem Triple.throw_bind (e : ε) {f : α → StateT σ (Except ε) β} {S : β → σ → Prop} :
    Triple P (MonadExcept.throw e >>= f) S :=
  fun _ _ _ _ h => absurd h throw_bind_ne_ok

/-- A lifted computation that returns passes its equation on to the rest of the program. -/
theorem Triple.lift_bind {x : Except ε α} {f : α → StateT σ (Except ε) β} {S : β → σ → Prop}
    (hf : ∀ a, x = .ok a → Triple P (f a) S) : Triple P ((liftM x : StateT σ (Except ε) α) >>= f) S := by
  intro s b s' hs h
  obtain ⟨a, hx, h⟩ := lift_bind_eq_ok.1 h
  exact hf a hx s b s' hs h

theorem Triple.get {Q : σ → σ → Prop} (h : ∀ s, P s → Q s s) :
    Triple P (get : StateT σ (Except ε) σ) Q := by
  intro s a s' hs hrun
  obtain ⟨rfl, rfl⟩ := get_eq_ok.1 hrun
  exact h s hs

theorem Triple.modify {f : σ → σ} {Q : PUnit → σ → Prop} (h : ∀ s, P s → Q () (f s)) :
    Triple P (modify f : StateT σ (Except ε) PUnit) Q := by
  intro s u s' hs hrun
  rw [modify_eq_ok.1 hrun]
  exact h s hs

theorem Triple.ite {c : Prop} [Decidable c] {x y : StateT σ (Except ε) α}
    (hx : c → Triple P x Q) (hy : ¬ c → Triple P y Q) : Triple P (if c then x else y) Q := by
  by_cases hc : c
  · rw [if_pos hc]
    exact hx hc
  · rw [if_neg hc]
    exact hy hc

theorem Triple.conseq {x : StateT σ (Except ε) α} (h : Triple P' x Q') (hP : ∀ s, P s → P' s)
    (hQ : ∀ a s, Q' a s → Q a s) : Triple P x Q :=
  fun s a s' hs hrun => hQ a s' (h s a s' (hP s hs) hrun)

/-- An invariant of each iteration is one of the loop. -/
theorem Triple.forM {l : List α} {f : α → StateT σ (Except ε) PUnit}
    (hf : ∀ a ∈ l, Triple P (f a) fun _ => P) : Triple P (l.forM f) fun _ => P := by
  induction l with
  | nil => exact Triple.pure fun _ h => h
  | cons a l ih =>
    show Triple P (f a >>= fun _ => l.forM f) fun _ => P
    exact (hf a List.mem_cons_self).bind fun _ =>
      ih fun b hb => hf b (List.mem_cons_of_mem a hb)

/-- A precondition that does not mention the state can be taken out of the triple. -/
theorem Triple.of_forall {c : Prop} {x : StateT σ (Except ε) α} (h : c → Triple P x Q) :
    Triple (fun s => c ∧ P s) x Q :=
  fun s a s' hs hrun => h hs.1 s a s' hs.2 hrun

/-! ### Loops as chains of steps -/

/-- One step for each element of a list, in order, from the first state to the last. -/
inductive Chain (step : α → σ → σ → Prop) : List α → σ → σ → Prop
  | nil (s : σ) : Chain step [] s s
  | cons {a : α} {l : List α} {s₁ s₂ s₃ : σ} : step a s₁ s₂ → Chain step l s₂ s₃ → Chain step (a :: l) s₁ s₃

theorem Chain.append {l₁ l₂ : List α} {s₁ s₂ s₃ : σ} (h₁ : Chain step l₁ s₁ s₂) (h₂ : Chain step l₂ s₂ s₃) :
    Chain step (l₁ ++ l₂) s₁ s₃ := by
  induction h₁ with
  | nil => exact h₂
  | cons hstep _ ih => exact .cons hstep (ih h₂)

theorem Chain.imp {step step' : α → σ → σ → Prop} (h : ∀ a s s', step a s s' → step' a s s')
    {l : List α} {s s' : σ} (hc : Chain step l s s') : Chain step' l s s' := by
  induction hc with
  | nil s => exact .nil s
  | cons hstep _ ih => exact .cons (h _ _ _ hstep) ih

/-- A chain whose every step maps a view `π` of the state by `g` maps it by the fold of `g`. -/
theorem Chain.foldl (π : σ → β) (g : β → α → β)
    (hstep : ∀ a s₁ s₂, step a s₁ s₂ → π s₂ = g (π s₁) a) {l : List α} {s s' : σ}
    (hc : Chain step l s s') : π s' = l.foldl g (π s) := by
  induction hc with
  | nil s => rfl
  | cons h _ ih => rw [ih, List.foldl_cons, hstep _ _ _ h]

/-- A run of a loop that returns runs each iteration in turn. -/
theorem forM_chain {l : List α} {f : α → StateT σ (Except ε) PUnit} {s s' : σ} {u : PUnit}
    (h : l.forM f s = .ok (u, s')) : Chain (fun a s₁ s₂ => ∃ u, f a s₁ = .ok (u, s₂)) l s s' := by
  induction l generalizing s with
  | nil =>
    obtain ⟨-, rfl⟩ := pure_eq_ok.1 h
    exact .nil s
  | cons a l ih =>
    change (f a >>= fun _ => l.forM f) s = .ok (u, s') at h
    rw [bind_eq_ok] at h
    obtain ⟨u₁, s₁, h₁, h⟩ := h
    exact .cons ⟨u₁, h₁⟩ (ih h)

end StateExcept
