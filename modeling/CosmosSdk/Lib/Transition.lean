import Mathlib

/-!
# Runs of a labelled transition system

A system is a relation `step s e s'`: from state `s`, an atomic step that shows the event `e` leads to
`s'`.  Concurrent threads are interleaved by the relation itself: each thread's steps are some of its
steps.  `Run step s es s'` is a run from `s` to `s'` showing the events `es`, and `Reachable step s₀`
the states some run from `s₀` reaches.

* `Run.invariant`: a property that every step keeps holds along every run, and `Reachable.invariant`
  of every reachable state that has it at the start.  `Run.invariant_budget` is the same for a property
  with a budget that each step spends from, such as the room left in a counter.
* `Run.rank_add_count_le`: a rank on states that no step raises and that every step showing an event
  in `P` lowers is at least the number of such steps a run takes, plus the rank it ends with.  Used for
  liveness: a thread whose steps lower a rank, and which is never blocked, stops after as many of its
  own steps as the rank says, whatever the other threads do.
-/

namespace Transition

variable {σ ε : Type} (step : σ → ε → σ → Prop)

/-- A run from the first state to the last, showing the events in order. -/
inductive Run : σ → List ε → σ → Prop
  | nil (s : σ) : Run s [] s
  | cons {s s' s'' : σ} {e : ε} {es : List ε} : step s e s' → Run s' es s'' → Run s (e :: es) s''

/-- The states a run from `s₀` reaches. -/
def Reachable (s₀ s : σ) : Prop := ∃ es, Run step s₀ es s

variable {step}

theorem Run.append {s s' s'' : σ} {es es' : List ε} (h : Run step s es s') (h' : Run step s' es' s'') :
    Run step s (es ++ es') s'' := by
  induction h with
  | nil => exact h'
  | cons hstep _ ih => exact .cons hstep (ih h')

theorem Run.single {s s' : σ} {e : ε} (h : step s e s') : Run step s [e] s' := .cons h (.nil s')

theorem Reachable.refl (s₀ : σ) : Reachable step s₀ s₀ := ⟨[], .nil s₀⟩

theorem Reachable.next {s₀ s s' : σ} {e : ε} (h : Reachable step s₀ s) (hstep : step s e s') :
    Reachable step s₀ s' := by
  obtain ⟨es, hrun⟩ := h
  exact ⟨es ++ [e], hrun.append (.single hstep)⟩

theorem Reachable.run {s₀ s s' : σ} {es : List ε} (h : Reachable step s₀ s) (hrun : Run step s es s') :
    Reachable step s₀ s' := by
  obtain ⟨es₀, hrun₀⟩ := h
  exact ⟨es₀ ++ es, hrun₀.append hrun⟩

/-- A property that every step keeps holds at the end of every run that starts with it. -/
theorem Run.invariant {I : σ → Prop} (hstep : ∀ s e s', I s → step s e s' → I s') {s s' : σ}
    {es : List ε} (hrun : Run step s es s') (hs : I s) : I s' := by
  induction hrun with
  | nil => exact hs
  | cons h _ ih => exact ih (hstep _ _ _ hs h)

theorem Reachable.invariant {I : σ → Prop} (hstep : ∀ s e s', I s → step s e s' → I s')
    {s₀ s : σ} (h : Reachable step s₀ s) (h₀ : I s₀) : I s :=
  h.elim fun _ hrun => hrun.invariant hstep h₀

/-- A property with a budget, which each step keeps while it spends its event's cost: it holds at the end
of every run that starts with it and a budget of the cost of the run's events, and what is left. -/
theorem Run.invariant_budget {I : σ → Nat → Prop} (cost : ε → Nat)
    (hstep : ∀ s e s' m, I s (cost e + m) → step s e s' → I s' m) {s s' : σ} {es : List ε}
    (hrun : Run step s es s') {m : Nat} (hs : I s ((es.map cost).sum + m)) : I s' m := by
  induction hrun with
  | nil =>
    rw [List.map_nil, List.sum_nil, Nat.zero_add] at hs
    exact hs
  | cons h _ ih =>
    rw [List.map_cons, List.sum_cons, Nat.add_assoc] at hs
    exact ih (hstep _ _ _ _ hs h)

/-- A rank that no step raises, and that the steps showing an event of `P` lower: along a run, the
number of those steps plus the rank at the end is at most the rank at the start. -/
theorem Run.rank_add_count_le (μ : σ → Nat) (P : ε → Bool)
    (hle : ∀ s e s', step s e s' → μ s' ≤ μ s) (hlt : ∀ s e s', step s e s' → P e = true → μ s' < μ s)
    {s s' : σ} {es : List ε} (hrun : Run step s es s') : μ s' + (es.filter P).length ≤ μ s := by
  induction hrun with
  | nil => simp
  | @cons s₁ s₂ s₃ e es hstep _ ih =>
    by_cases hp : P e = true
    · -- a step of `P` lowers the rank by one at least, and counts once
      have := hlt _ _ _ hstep hp
      rw [List.filter_cons_of_pos hp, List.length_cons]
      omega
    · have := hle _ _ _ hstep
      rw [List.filter_cons_of_neg hp]
      omega

end Transition
