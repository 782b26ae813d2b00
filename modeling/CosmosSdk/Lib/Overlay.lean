import Mathlib

/-!
# Overlaying one sorted listing on another

Association lists whose keys strictly increase (`StrictKeys`), and `overlay P C`, the listing of `P`
with the entries of `C` laid over it, where an entry `(k, none)` of `C` hides `k`.  This is the
abstract result of a merge of a sorted base listing with a sorted list of pending changes:
`mem_overlay` says which entries it has and `strictKeys_overlay` that it is again strictly sorted, so
`overlay` is the unique sorted listing of the combined map.

Everything is stated for an arbitrary linear order; a descending listing is an ascending one for the
dual order.
-/

namespace Overlay

variable {K V β : Type*} [LinearOrder K]

/-- The keys of `L` strictly increase. -/
def StrictKeys (L : List (K × β)) : Prop := L.Pairwise (fun a b => a.1 < b.1)

@[simp] theorem strictKeys_nil : StrictKeys ([] : List (K × β)) := List.Pairwise.nil

theorem strictKeys_cons {e : K × β} {L : List (K × β)} :
    StrictKeys (e :: L) ↔ (∀ e' ∈ L, e.1 < e'.1) ∧ StrictKeys L := List.pairwise_cons

/-- A listing sorted by keys whose keys are distinct is strictly sorted. -/
theorem strictKeys_of_pairwise_le {L : List (K × β)} (h : L.Pairwise (fun a b => a.1 ≤ b.1))
    (hn : (L.map (·.1)).Nodup) : StrictKeys L :=
  List.Pairwise.imp₂ (fun _ _ hle hne => lt_of_le_of_ne hle hne) h (List.pairwise_map.1 hn)

/-- A strictly sorted listing is determined by its entries. -/
theorem StrictKeys.eq_of_mem_iff {L₁ L₂ : List (K × β)} (h₁ : StrictKeys L₁) (h₂ : StrictKeys L₂)
    (h : ∀ e, e ∈ L₁ ↔ e ∈ L₂) : L₁ = L₂ := by
  have hn : ∀ {L : List (K × β)}, StrictKeys L → L.Nodup := fun hL =>
    hL.imp fun {a b} hlt (he : a = b) => lt_irrefl a.1 (he ▸ hlt)
  have hn₁ := hn h₁
  have hn₂ := hn h₂
  refine ((List.perm_ext_iff_of_nodup hn₁ hn₂).2 h).eq_of_pairwise ?_ h₁ h₂
  exact fun a b _ _ hab hba => absurd (hab.trans hba) (lt_irrefl _)

/-- The listing of `P` overlaid with the pending entries `C`. -/
def overlay : List (K × V) → List (K × Option V) → List (K × V)
  | P, [] => P
  | [], (k, o) :: C => (o.map (k, ·)).toList ++ overlay [] C
  | (k, v) :: P, (k', o) :: C =>
    match compare k k' with
    | .lt => (k, v) :: overlay P ((k', o) :: C)
    | .eq => (o.map (k', ·)).toList ++ overlay P C
    | .gt => (o.map (k', ·)).toList ++ overlay ((k, v) :: P) C
termination_by P C => P.length + C.length

@[simp] theorem overlay_nil_right (P : List (K × V)) : overlay P [] = P := by
  cases P <;> simp [overlay]

theorem overlay_nil_cons (k : K) (o : Option V) (C : List (K × Option V)) :
    overlay [] ((k, o) :: C) = (o.map (k, ·)).toList ++ overlay [] C := by
  simp [overlay]

theorem overlay_cons_cons (k k' : K) (v : V) (o : Option V) (P : List (K × V))
    (C : List (K × Option V)) :
    overlay ((k, v) :: P) ((k', o) :: C) =
      match compare k k' with
      | .lt => (k, v) :: overlay P ((k', o) :: C)
      | .eq => (o.map (k', ·)).toList ++ overlay P C
      | .gt => (o.map (k', ·)).toList ++ overlay ((k, v) :: P) C := by
  rw [overlay]

omit [LinearOrder K] in
@[simp] private theorem mem_toList_map {k k' : K} {v : V} {o : Option V} :
    (k, v) ∈ (o.map (k', ·)).toList ↔ k = k' ∧ o = some v := by
  cases o <;> simp [eq_comm, and_comm]

/-- A pending delete below every key of `P` leaves the overlay as it is. -/
theorem overlay_cons_none_of_lt {P : List (K × V)} {C : List (K × Option V)} {k : K}
    (h : ∀ e ∈ P, k < e.1) : overlay P ((k, none) :: C) = overlay P C := by
  cases P with
  | nil => simp [overlay_nil_cons]
  | cons e P =>
    obtain ⟨k₀, v₀⟩ := e
    have hgt : compare k₀ k = .gt := compare_gt_iff_gt.2 (h _ (List.mem_cons_self ..))
    rw [overlay_cons_cons, hgt]
    simp

/-- Every key of the overlay is a key of `P` or of `C`. -/
theorem key_mem_overlay {P : List (K × V)} {C : List (K × Option V)} {e : K × V}
    (h : e ∈ overlay P C) : (∃ v, (e.1, v) ∈ P) ∨ (∃ o, (e.1, o) ∈ C) := by
  induction P, C using overlay.induct generalizing e with
  | case1 P => exact .inl ⟨e.2, by simpa using h⟩
  | case2 k o C ih =>
    rw [overlay_nil_cons, List.mem_append] at h
    rcases h with h | h
    · obtain ⟨rfl, -⟩ := mem_toList_map.1 h
      exact .inr ⟨o, by simp⟩
    · rcases ih h with ⟨v, hv⟩ | ⟨o', ho'⟩
      · cases hv
      · exact .inr ⟨o', List.mem_cons_of_mem _ ho'⟩
  | case3 k v P k' o C hc ih =>
    rw [overlay_cons_cons, hc, List.mem_cons] at h
    rcases h with rfl | h
    · exact .inl ⟨v, by simp⟩
    · rcases ih h with ⟨v', hv'⟩ | ⟨o', ho'⟩
      · exact .inl ⟨v', List.mem_cons_of_mem _ hv'⟩
      · exact .inr ⟨o', ho'⟩
  | case4 k v P k' o C hc ih =>
    rw [overlay_cons_cons, hc, List.mem_append] at h
    rcases h with h | h
    · obtain ⟨rfl, -⟩ := mem_toList_map.1 h
      exact .inr ⟨o, by simp⟩
    · rcases ih h with ⟨v', hv'⟩ | ⟨o', ho'⟩
      · exact .inl ⟨v', List.mem_cons_of_mem _ hv'⟩
      · exact .inr ⟨o', List.mem_cons_of_mem _ ho'⟩
  | case5 k v P k' o C hc ih =>
    rw [overlay_cons_cons, hc, List.mem_append] at h
    rcases h with h | h
    · obtain ⟨rfl, -⟩ := mem_toList_map.1 h
      exact .inr ⟨o, by simp⟩
    · rcases ih h with ⟨v', hv'⟩ | ⟨o', ho'⟩
      · exact .inl ⟨v', hv'⟩
      · exact .inr ⟨o', List.mem_cons_of_mem _ ho'⟩

private theorem not_mem_of_lt {L : List (K × β)} {k : K} (h : ∀ e ∈ L, k < e.1) (b : β) :
    (k, b) ∉ L := fun hk => lt_irrefl k (h _ hk)

private theorem strictKeys_toList_append {k : K} {o : Option V} {L : List (K × V)}
    (h : ∀ e ∈ L, k < e.1) (hL : StrictKeys L) : StrictKeys ((o.map (k, ·)).toList ++ L) := by
  cases o with
  | none => simpa using hL
  | some v => exact strictKeys_cons.2 ⟨h, hL⟩

/-- The overlay is strictly sorted. -/
theorem strictKeys_overlay {P : List (K × V)} {C : List (K × Option V)} (hP : StrictKeys P)
    (hC : StrictKeys C) : StrictKeys (overlay P C) := by
  induction P, C using overlay.induct with
  | case1 P => simpa using hP
  | case2 k o C ih =>
    rw [strictKeys_cons] at hC
    rw [overlay_nil_cons]
    refine strictKeys_toList_append (fun e he => ?_) (ih hP hC.2)
    rcases key_mem_overlay he with ⟨v, hv⟩ | ⟨o', ho'⟩
    · cases hv
    · exact hC.1 _ ho'
  | case3 k v P k' o C hc ih =>
    have hlt : k < k' := compare_lt_iff_lt.1 hc
    rw [strictKeys_cons] at hP
    have hC' := strictKeys_cons.1 hC
    rw [overlay_cons_cons, hc]
    refine strictKeys_cons.2 ⟨fun e he => ?_, ih hP.2 hC⟩
    rcases key_mem_overlay he with ⟨v', hv'⟩ | ⟨o', ho'⟩
    · exact hP.1 (e.1, v') hv'
    · rcases List.mem_cons.1 ho' with he' | ho'
      · rw [(Prod.mk.inj he').1]; exact hlt
      · exact hlt.trans (hC'.1 _ ho')
  | case4 k v P k' o C hc ih =>
    have heq : k = k' := compare_eq_iff_eq.1 hc
    subst heq
    rw [strictKeys_cons] at hP hC
    rw [overlay_cons_cons, hc]
    refine strictKeys_toList_append (fun e he => ?_) (ih hP.2 hC.2)
    rcases key_mem_overlay he with ⟨v', hv'⟩ | ⟨o', ho'⟩
    · exact hP.1 (e.1, v') hv'
    · exact hC.1 _ ho'
  | case5 k v P k' o C hc ih =>
    have hlt : k' < k := compare_gt_iff_gt.1 hc
    have hP' := strictKeys_cons.1 hP
    rw [strictKeys_cons] at hC
    rw [overlay_cons_cons, hc]
    refine strictKeys_toList_append (fun e he => ?_) (ih hP hC.2)
    rcases key_mem_overlay he with ⟨v', hv'⟩ | ⟨o', ho'⟩
    · rcases List.mem_cons.1 hv' with he' | hv'
      · rw [(Prod.mk.inj he').1]; exact hlt
      · exact hlt.trans (hP'.1 (e.1, v') hv')
    · exact hC.1 _ ho'

/-- The entries of the overlay: those of `C` that are not hidden, and those of `P` whose key `C` does
not mention. -/
theorem mem_overlay {P : List (K × V)} {C : List (K × Option V)} (hP : StrictKeys P)
    (hC : StrictKeys C) {k : K} {v : V} :
    (k, v) ∈ overlay P C ↔ (k, some v) ∈ C ∨ ((k, v) ∈ P ∧ ∀ o, (k, o) ∉ C) := by
  induction P, C using overlay.induct with
  | case1 P => simp
  | case2 k' o C ih =>
    rw [strictKeys_cons] at hC
    rw [overlay_nil_cons, List.mem_append, mem_toList_map, ih hP hC.2]
    simp [eq_comm]
  | case3 k₀ v₀ P k' o C hc ih =>
    have hlt : k₀ < k' := compare_lt_iff_lt.1 hc
    rw [strictKeys_cons] at hP
    have hC' := strictKeys_cons.1 hC
    have hk₀ : ∀ o', (k₀, o') ∉ (k', o) :: C := not_mem_of_lt (fun e he => by
      rcases List.mem_cons.1 he with rfl | he
      · exact hlt
      · exact hlt.trans (hC'.1 _ he))
    rw [overlay_cons_cons, hc, List.mem_cons, ih hP.2 hC]
    grind
  | case4 k₀ v₀ P k' o C hc ih =>
    have heq : k₀ = k' := compare_eq_iff_eq.1 hc
    subst heq
    rw [strictKeys_cons] at hP hC
    have hP₀ := not_mem_of_lt hP.1
    have hC₀ := not_mem_of_lt hC.1
    rw [overlay_cons_cons, hc, List.mem_append, mem_toList_map, ih hP.2 hC.2]
    grind
  | case5 k₀ v₀ P k' o C hc ih =>
    have hlt : k' < k₀ := compare_gt_iff_gt.1 hc
    have hP' := strictKeys_cons.1 hP
    rw [strictKeys_cons] at hC
    have hC₀ := not_mem_of_lt hC.1
    have hk' : ∀ v', (k', v') ∉ (k₀, v₀) :: P := not_mem_of_lt (fun e he => by
      rcases List.mem_cons.1 he with rfl | he
      · exact hlt
      · exact hlt.trans (hP'.1 _ he))
    rw [overlay_cons_cons, hc, List.mem_append, mem_toList_map, ih hP hC.2]
    grind

end Overlay
