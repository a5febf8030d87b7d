import LivePreview.Proofs.Text.Pattern

namespace LivePreview.Text

theorem append_eq_append_cons_cases {α : Type} {u v x y : List α} {c : α}
    (h : u ++ v = x ++ c :: y) :
    (∃ w, u = x ++ c :: w ∧ y = w ++ v) ∨ ∃ w, x = u ++ w ∧ v = w ++ c :: y := by
  induction u generalizing x with
  | nil => exact .inr ⟨x, rfl, h⟩
  | cons d u ih =>
    cases x with
    | nil =>
      obtain ⟨rfl, rfl⟩ := List.cons.inj h
      exact .inl ⟨u, rfl, rfl⟩
    | cons e x =>
      obtain ⟨rfl, hrest⟩ := List.cons.inj h
      rcases ih hrest with ⟨w, rfl, rfl⟩ | ⟨w, rfl, rfl⟩
      · exact .inl ⟨w, rfl, rfl⟩
      · exact .inr ⟨w, rfl, rfl⟩

namespace Pattern

/-- Whether a character of `cs` occurs only behind one of `ds`. -/
def guards (ds cs : List Char) : Pattern → Bool
  | .nothing => true
  | .empty => true
  | .symbol s => cs.all fun c => !s.accepts c
  | .seq p q => p.guards ds cs && (p.requires ds || q.guards ds cs)
  | .either p q => p.guards ds cs && q.guards ds cs
  | .many p => p.guards ds cs

/-- How many characters of `cs` occur at most, when there is a bound. -/
def most (cs : List Char) : Pattern → Option Nat
  | .nothing => Option.some 0
  | .empty => Option.some 0
  | .symbol s => Option.some (if cs.all fun c => !s.accepts c then 0 else 1)
  | .seq p q => (p.most cs).bind fun m => (q.most cs).map (m + ·)
  | .either p q => (p.most cs).bind fun m => (q.most cs).map (max m)
  | .many p => if p.most cs = Option.some 0 then Option.some 0 else none

def endsName : Pattern → Bool
  | .nothing => true
  | .empty => true
  | .symbol (.char c) => !isNameChar c
  | .symbol .blank => true
  | .symbol _ => false
  | .seq p q => p.endsName && (!p.nullable || q.endsName)
  | .either p q => p.endsName && q.endsName
  | .many p => p.endsName

variable {p q : Pattern} {cs ds u : List Char}

theorem exists_mem_of_guards (h : Matches p u) (hp : p.guards ds cs) :
    ∀ x c y, u = x ++ c :: y → c ∈ cs → ∃ d ∈ x, d ∈ ds := by
  induction h with
  | empty => simp
  | @symbol s e hs =>
    intro x c y heq hc
    obtain rfl : e = c := by
      cases x with
      | nil => exact (List.cons.inj heq).1
      | cons d x => simp at heq
    have hnot := List.all_eq_true.1 hp e hc
    simp [hs] at hnot
  | @seq p q u v hu _ ihu ihv =>
    obtain ⟨hfirst, hsecond⟩ := Bool.and_eq_true_iff.1 hp
    intro x c y heq hc
    rcases append_eq_append_cons_cases heq with ⟨w, hu', -⟩ | ⟨w, rfl, hv'⟩
    · exact ihu hfirst x c w hu' hc
    · rcases Bool.or_eq_true_iff.1 hsecond with hrequires | hguards
      · obtain ⟨d, hd, hmem⟩ := exists_mem_of_requires hu hrequires
        exact ⟨d, List.mem_append_left w hd, hmem⟩
      · obtain ⟨d, hd, hmem⟩ := ihv hguards w c y hv' hc
        exact ⟨d, List.mem_append_right u hd, hmem⟩
  | left _ ih => exact ih (Bool.and_eq_true_iff.1 hp).1
  | right _ ih => exact ih (Bool.and_eq_true_iff.1 hp).2
  | none => simp
  | @more p u v _ _ ihu ihv =>
    intro x c y heq hc
    rcases append_eq_append_cons_cases heq with ⟨w, hu', -⟩ | ⟨w, rfl, hv'⟩
    · exact ihu hp x c w hu' hc
    · obtain ⟨d, hd, hmem⟩ := ihv hp w c y hv' hc
      exact ⟨d, List.mem_append_right u hd, hmem⟩

theorem countP_le_of_most {n : Nat} (h : Matches p u) (hp : p.most cs = Option.some n) :
    u.countP cs.contains ≤ n := by
  induction h generalizing n with
  | empty => simp
  | @symbol s c hs =>
    simp only [most, Option.some.injEq] at hp
    subst hp
    split
    · rename_i hall
      refine Nat.le_of_eq (List.countP_eq_zero.2 fun d hd hmem => ?_)
      obtain rfl := List.mem_singleton.1 hd
      have hnot := List.all_eq_true.1 hall d (by simpa using hmem)
      simp [hs] at hnot
    · exact List.countP_le_length
  | seq _ _ ihu ihv =>
    obtain ⟨m, hm, hn⟩ := Option.bind_eq_some_iff.1 hp
    obtain ⟨k, hk, rfl⟩ := Option.map_eq_some_iff.1 hn
    rw [List.countP_append]
    exact Nat.add_le_add (ihu hm) (ihv hk)
  | left _ ih =>
    obtain ⟨m, hm, hn⟩ := Option.bind_eq_some_iff.1 hp
    obtain ⟨k, hk, rfl⟩ := Option.map_eq_some_iff.1 hn
    exact Nat.le_trans (ih hm) (Nat.le_max_left m k)
  | right _ ih =>
    obtain ⟨m, hm, hn⟩ := Option.bind_eq_some_iff.1 hp
    obtain ⟨k, hk, rfl⟩ := Option.map_eq_some_iff.1 hn
    exact Nat.le_trans (ih hk) (Nat.le_max_right m k)
  | none => simp
  | more _ _ ihu ihv =>
    rw [most] at hp
    split at hp
    · rename_i hzero
      obtain rfl := Option.some.inj hp
      rw [List.countP_append]
      exact Nat.add_le_add (ihu hzero) (ihv (by rw [most, if_pos hzero]))
    · cases hp

theorem not_isNameChar_of_endsName {c : Char} {v : List Char} (hp : p.endsName)
    (h : Matches p (c :: v)) : isNameChar c = false := by
  generalize hu : c :: v = u at h
  induction h generalizing v with
  | empty => cases hu
  | @symbol s d hs =>
    obtain ⟨rfl, -⟩ := List.cons.inj hu
    cases s with
    | char d =>
      have hcd : c = d := eq_of_beq hs
      rw [hcd]
      exact Bool.not_eq_eq_eq_not.1 hp
    | blank => exact not_isNameChar_of_isBlank hs
    | nameChar => cases hp
    | nameStart => cases hp
    | noneOf ds => cases hp
  | @seq p q u w hu' _ ihu ihw =>
    obtain ⟨hfirst, hsecond⟩ := Bool.and_eq_true_iff.1 hp
    cases u with
    | nil =>
      rcases Bool.or_eq_true_iff.1 hsecond with hne | hends
      · rw [nullable_iff.2 hu'] at hne
        cases hne
      · exact ihw hends hu
    | cons d u =>
      obtain ⟨rfl, -⟩ := List.cons.inj hu
      exact ihu hfirst rfl
  | left _ ih => exact ih (Bool.and_eq_true_iff.1 hp).1 hu
  | right _ ih => exact ih (Bool.and_eq_true_iff.1 hp).2 hu
  | none => cases hu
  | @more p u w _ _ ihu ihw =>
    cases u with
    | nil => exact ihw hp hu
    | cons d u =>
      obtain ⟨rfl, -⟩ := List.cons.inj hu
      exact ihu hp rfl

end Pattern

end LivePreview.Text
