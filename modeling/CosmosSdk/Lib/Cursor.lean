import Mathlib.Data.List.Basic

/-!
# Cursors

The read side of a forward iterator over some state type `ι`: `cur` is the entry the iterator points
at (`none` once it is exhausted) and `next` moves it on.  `Cursor.Yields c it L` says that the loop

    for ; it.Valid(); it.Next() { … it.Key(), it.Value() … }

run from `it` terminates and observes exactly the entries `L`, in this order.  A list is a cursor over
itself (`Cursor.ofList`), and the observed list of any cursor is unique (`Cursor.Yields.unique`).

A `Cursor.Bounded` cursor comes with a measure that every step decreases; such a cursor can be drained
by a computable loop (`Cursor.Bounded.toList`), which yields what the cursor shows
(`Cursor.Bounded.yields_toList`).
-/

/-- A forward iterator over states `ι` with entries `α`. -/
structure Cursor (ι α : Type*) where
  cur : ι → Option α
  next : ι → ι

namespace Cursor

variable {ι α : Type*}

/-- Iterating `it` with `c` until it is exhausted shows exactly the entries `L`. -/
inductive Yields (c : Cursor ι α) : ι → List α → Prop
  | nil {it : ι} : c.cur it = none → Yields c it []
  | cons {it : ι} {a : α} {L : List α} : c.cur it = some a → Yields c (c.next it) L →
      Yields c it (a :: L)

theorem Yields.unique {c : Cursor ι α} {it : ι} {L₁ L₂ : List α}
    (h₁ : c.Yields it L₁) (h₂ : c.Yields it L₂) : L₁ = L₂ := by
  induction h₁ generalizing L₂ with
  | nil h => cases h₂ with
    | nil _ => rfl
    | cons h' _ => rw [h] at h'; cases h'
  | cons h _ ih => cases h₂ with
    | nil h' => rw [h] at h'; cases h'
    | cons h' hL =>
      rw [h] at h'
      cases h'
      rw [ih hL]

/-- A cursor yielding `L` shows the head of `L`. -/
theorem Yields.cur_eq {c : Cursor ι α} {it : ι} {L : List α} (h : c.Yields it L) :
    c.cur it = L.head? := by
  cases h with
  | nil h => exact h
  | cons h _ => exact h

/-- A cursor yielding `a :: L` steps to one yielding `L`. -/
theorem Yields.next {c : Cursor ι α} {it : ι} {a : α} {L : List α} (h : c.Yields it (a :: L)) :
    c.Yields (c.next it) L := by
  cases h with
  | cons _ hL => exact hL

/-- A cursor showing `a` yields a list headed by `a`. -/
theorem Yields.eq_cons_of_cur {c : Cursor ι α} {it : ι} {L : List α} {a : α} (h : c.Yields it L)
    (ha : c.cur it = some a) : ∃ L', L = a :: L' := by
  cases h with
  | nil h => rw [h] at ha; cases ha
  | cons h _ => rw [h] at ha; cases ha; exact ⟨_, rfl⟩

/-- A list, read from its head. -/
def ofList : Cursor (List α) α := ⟨List.head?, List.tail⟩

@[simp] theorem ofList_cur (L : List α) : ofList.cur L = L.head? := rfl

@[simp] theorem ofList_next (L : List α) : ofList.next L = L.tail := rfl

theorem ofList_yields (L : List α) : ofList.Yields L L := by
  induction L with
  | nil => exact .nil rfl
  | cons a L ih => exact .cons rfl ih

/-! ### Draining a cursor -/

/-- Run the loop for at most `fuel` entries. -/
def drain (c : Cursor ι α) : Nat → ι → List α
  | 0, _ => []
  | fuel + 1, it =>
    match c.cur it with
    | none => []
    | some a => a :: c.drain fuel (c.next it)

/-- A cursor with a measure on its states that strictly decreases at every step it takes while it
shows an entry: it cannot run forever. -/
structure Bounded (c : Cursor ι α) where
  size : ι → Nat
  size_next_lt : ∀ it a, c.cur it = some a → size (c.next it) < size it

/-- Drain a bounded cursor: its measure is enough fuel. -/
def Bounded.toList {c : Cursor ι α} (b : c.Bounded) (it : ι) : List α :=
  c.drain (b.size it + 1) it

theorem Bounded.yields_drain {c : Cursor ι α} (b : c.Bounded) (fuel : Nat) :
    ∀ it, b.size it < fuel → c.Yields it (c.drain fuel it) := by
  induction fuel with
  | zero => intro it h; omega
  | succ fuel ih =>
    intro it h
    rcases hcur : c.cur it with _ | a
    · simp only [drain, hcur]
      exact .nil hcur
    · simp only [drain, hcur]
      -- the step decreases the measure, so the remaining fuel still covers it
      have hlt := b.size_next_lt it a hcur
      exact .cons hcur (ih _ (by omega))

/-- The drained list is what the cursor shows. -/
theorem Bounded.yields_toList {c : Cursor ι α} (b : c.Bounded) (it : ι) :
    c.Yields it (b.toList it) :=
  b.yields_drain _ it (Nat.lt_succ_self _)

theorem Bounded.toList_eq {c : Cursor ι α} (b : c.Bounded) {it : ι} {L : List α}
    (h : c.Yields it L) : b.toList it = L :=
  (b.yields_toList it).unique h

/-- A list is bounded by its length. -/
def ofListBounded : (ofList (α := α)).Bounded where
  size := List.length
  size_next_lt L a h := by
    cases L with
    | nil => cases h
    | cons b L => simp

@[simp] theorem ofListBounded_toList (L : List α) : ofListBounded.toList L = L :=
  ofListBounded.toList_eq (ofList_yields L)

end Cursor
