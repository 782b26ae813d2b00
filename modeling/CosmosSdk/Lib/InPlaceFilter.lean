import Mathlib.Data.List.Basic

/-!
# Removing elements from a slice while indexing it

The Go loop

    for i := 0; i < len(s); i++ {
        x := s[i]
        if p(x) {
            s = append(s[:i], s[i+1:]...)
            i--
            if err := act(x); err != nil { return err }
        }
    }

walks `s` by index while it deletes from it: after a deletion, `i--` and the loop's `i++` leave the
index on the element that moved into place.  `loop p act s i` is this loop from index `i`, in any
monad.  It acts, in order, on exactly the elements from index `i` on that satisfy `p`, stopping at
the first error (`releaseAll`), and leaves the others where they were (`loop_eq`): no element is
skipped or seen twice.  A loop with nothing to do for the elements it drops is a filter
(`loop_pure`).
-/

namespace InPlaceFilter

variable {m : Type → Type} [Monad m] {α ε : Type}

/-- Act on each element in turn, stopping at the first error. -/
def releaseAll (act : α → m (Option ε)) : List α → m (Option ε)
  | [] => pure none
  | x :: xs => do
    match ← act x with
    | some err => pure (some err)
    | none => releaseAll act xs

/-- The loop, from index `i`: `.error` at the first failed action, else the elements kept. -/
def loop (p : α → Bool) (act : α → m (Option ε)) (s : List α) (i : Nat) :
    m (Except ε (List α)) :=
  if h : i < s.length then
    let x := s[i]
    if p x then do
      -- `append(s[:i], s[i+1:]...)` and `i--`: the next pass reads index `i` again
      let s' := s.eraseIdx i
      match ← act x with
      | some err => pure (.error err)
      | none => loop p act s' i
    else loop p act s (i + 1)
  else pure (.ok s)
termination_by s.length - i
decreasing_by
  · rw [List.length_eraseIdx_of_lt h]
    omega
  · omega

/-- Acting only on the elements that pass a test is acting on the filtered list. -/
theorem releaseAll_ite [LawfulMonad m] (q : α → Prop) [DecidablePred q] (act : α → m (Option ε))
    (l : List α) :
    releaseAll (fun x => if q x then act x else pure none) l =
      releaseAll act (l.filter fun x => decide (q x)) := by
  induction l with
  | nil => rfl
  | cons x l ih =>
    by_cases hq : q x
    · simp [releaseAll, hq, ih]
    · simp [releaseAll, hq, ih]

section Spec

variable [LawfulMonad m] (p : α → Bool) (act : α → m (Option ε))

/-- What the loop does from index `i`: act on the elements past `i` that satisfy `p`, and keep the
others after the first `i`. -/
def spec (s : List α) (i : Nat) : m (Except ε (List α)) := do
  match ← releaseAll act ((s.drop i).filter p) with
  | some err => pure (.error err)
  | none => pure (.ok (s.take i ++ (s.drop i).filter fun x => !p x))

/-- Deleting the element at `i` leaves the first `i` and shifts the rest down. -/
theorem eraseIdx_take_drop {s : List α} {i : Nat} (h : i < s.length) :
    (s.eraseIdx i).take i = s.take i ∧ (s.eraseIdx i).drop i = s.drop (i + 1) := by
  have hlen : (s.take i).length = i := List.length_take_of_le (Nat.le_of_lt h)
  rw [List.eraseIdx_eq_take_drop_succ]
  constructor
  · rw [List.take_left' hlen]
  · rw [List.drop_left' hlen]

theorem spec_of_lt {s : List α} {i : Nat} (h : i < s.length) :
    spec p act s i =
      if p s[i] then do
        match ← act s[i] with
        | some err => pure (.error err)
        | none => spec p act (s.eraseIdx i) i
      else spec p act s (i + 1) := by
  have hdrop : s.drop i = s[i] :: s.drop (i + 1) := List.drop_eq_getElem_cons h
  obtain ⟨htake', hdrop'⟩ := eraseIdx_take_drop h
  by_cases hp : p s[i]
  · -- the element is acted on first, and dropped; the rest of the run is the spec past it
    have hkeep : (s.drop i).filter (fun x => !p x) = (s.drop (i + 1)).filter fun x => !p x := by
      rw [hdrop, List.filter_cons_of_neg (by simpa using hp)]
    rw [if_pos hp, spec, spec, htake', hdrop', hkeep, hdrop, List.filter_cons_of_pos hp, releaseAll]
    simp only [bind_assoc]
    congr 1
    funext r
    cases r <;> simp
  · -- the element is kept, and joins the first part
    have htake : s.take (i + 1) = s.take i ++ [s[i]] := by
      rw [List.take_add_one, List.getElem?_eq_getElem h]
      rfl
    rw [if_neg hp, spec, spec, htake, hdrop, List.filter_cons_of_neg hp,
      List.filter_cons_of_pos (by simpa using hp), List.append_assoc]
    rfl

/-- From the start of a list, `spec` reads as a recursion over it: an element that passes `p` is
acted on and dropped, one that does not is kept in front. -/
theorem spec_cons (x : α) (xs : List α) :
    spec p act (x :: xs) 0 =
      if p x then
        (do
          match ← act x with
          | some err => pure (.error err)
          | none => spec p act xs 0)
      else (do
        let r ← spec p act xs 0
        pure (r.map (x :: ·))) := by
  by_cases hp : p x
  · simp only [spec, if_pos hp, List.drop_zero, List.take_zero, List.nil_append,
      List.filter_cons_of_pos hp, releaseAll, bind_assoc]
    congr 1
    funext r
    cases r <;> simp [hp]
  · simp only [spec, if_neg hp, List.drop_zero, List.take_zero, List.nil_append,
      List.filter_cons_of_neg hp, bind_assoc]
    congr 1
    funext r
    cases r <;> simp [hp, Except.map]

/-- The loop does what `spec` says. -/
theorem loop_eq (s : List α) (i : Nat) : loop p act s i = spec p act s i := by
  induction s, i using loop.induct p with
  | case1 s i h x hp s' ih =>
    rw [loop, dif_pos h, if_pos hp, spec_of_lt p act h, if_pos hp]
    dsimp only
    congr 1
    funext r
    cases r with
    | some err => rfl
    | none => exact ih
  | case2 s i h x hp ih => rw [loop, dif_pos h, if_neg hp, spec_of_lt p act h, if_neg hp, ih]
  | case3 s i h =>
    rw [loop, dif_neg h, spec, List.drop_eq_nil_of_le (Nat.not_lt.1 h), List.filter_nil,
      List.take_of_length_le (Nat.not_lt.1 h)]
    simp [releaseAll]

/-- With nothing to do for the elements it drops, the loop from the start is a filter. -/
theorem loop_pure (s : List α) :
    loop p (fun _ => (pure none : m (Option ε))) s 0 = pure (.ok (s.filter fun x => !p x)) := by
  have hnone : ∀ l : List α, releaseAll (fun _ => (pure none : m (Option ε))) l = pure none := by
    intro l
    induction l with
    | nil => rfl
    | cons x l ih => simp [releaseAll, ih]
  rw [loop_eq, spec, hnone]
  simp

end Spec

end InPlaceFilter
