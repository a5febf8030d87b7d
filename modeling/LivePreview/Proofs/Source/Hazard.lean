import Mathlib.Data.List.Basic
import LivePreview.Source.ClassicScript

namespace LivePreview.Source

def isEndTag (cs : List Char) : Bool :=
  (['/'].isPrefixOf? cs).any (startsFolded ['s', 'c', 'r', 'i', 'p', 't'])

def isComment (cs : List Char) : Bool :=
  (['!', '-', '-'].isPrefixOf? cs).isSome

theorem isHazard_eq (cs : List Char) : isHazard cs = (isEndTag cs || isComment cs) := by
  unfold isHazard
  split
  · simp [isEndTag, isComment, List.isPrefixOf?]
  · simp [isEndTag, isComment, List.isPrefixOf?]
  · rename_i hslash hdashes
    have hslash' : ['/'].isPrefixOf? cs = none :=
      Option.eq_none_iff_forall_ne_some.2 fun rest h =>
        hslash rest (List.append_eq_of_isPrefixOf?_eq_some h).symm
    have hdashes' : ['!', '-', '-'].isPrefixOf? cs = none :=
      Option.eq_none_iff_forall_ne_some.2 fun rest h =>
        hdashes rest (List.append_eq_of_isPrefixOf?_eq_some h).symm
    rw [isEndTag, isComment, hslash', hdashes']
    rfl

def isHarmless : List Char → Bool
  | [] => true
  | c :: cs => !(c == '<' && isHazard cs) && isHarmless cs

theorem isHarmless_cons_iff {c : Char} {cs : List Char} :
    isHarmless (c :: cs) ↔ (c = '<' → isHazard cs = false) ∧ isHarmless cs := by
  by_cases hc : c = '<' <;> simp [isHarmless, hc]

theorem isHarmless_of_append {u v : List Char} (h : isHarmless (u ++ v)) : isHarmless v := by
  induction u with
  | nil => exact h
  | cons c cs ih => exact ih (isHarmless_cons_iff.1 h).2

theorem foldCase_lt : foldCase '<' = '<' := by
  decide

theorem startsFolded_of_escapeHazards {word cs : List Char} (hword : '<' ∉ word)
    (h : startsFolded word (escapeHazards cs)) : startsFolded word cs := by
  induction word generalizing cs with
  | nil => rfl
  | cons w ws ih =>
    obtain ⟨hw, hws⟩ := List.ne_and_not_mem_of_not_mem_cons hword
    cases cs with
    | nil => exact h
    | cons c cs =>
      rw [escapeHazards] at h
      split at h
      · rename_i hhazard
        simp only [hhazard.1, startsFolded, Bool.and_eq_true, foldCase_lt, beq_iff_eq] at h
        exact absurd h.1 hw
      · simp only [startsFolded, Bool.and_eq_true] at h ⊢
        exact ⟨h.1, ih hws h.2⟩

theorem escapeHazards_eq_cons {d : Char} {cs rest : List Char} (hd : d ≠ '<')
    (h : escapeHazards cs = d :: rest) :
    ∃ tail, cs = d :: tail ∧ escapeHazards tail = rest := by
  cases cs with
  | nil => cases h
  | cons c cs =>
    rw [escapeHazards] at h
    split at h
    · rename_i hhazard
      obtain ⟨rfl, -⟩ := List.cons.inj h
      exact absurd hhazard.1 hd
    · obtain ⟨rfl, hrest⟩ := List.cons.inj h
      exact ⟨cs, rfl, hrest⟩

theorem isHazard_of_escapeHazards {cs : List Char} (h : isHazard (escapeHazards cs)) :
    isHazard cs := by
  generalize hout : escapeHazards cs = out at h
  unfold isHazard at h
  split at h
  · obtain ⟨tail, rfl, rfl⟩ := escapeHazards_eq_cons (by decide) hout
    exact startsFolded_of_escapeHazards (by decide) h
  · obtain ⟨tail, rfl, hfirst⟩ := escapeHazards_eq_cons (by decide) hout
    obtain ⟨more, rfl, hsecond⟩ := escapeHazards_eq_cons (by decide) hfirst
    obtain ⟨last, rfl, -⟩ := escapeHazards_eq_cons (by decide) hsecond
    rfl
  · cases h

theorem isHarmless_escapeHazards (cs : List Char) : isHarmless (escapeHazards cs) := by
  induction cs with
  | nil => rfl
  | cons c cs ih =>
    rw [escapeHazards]
    split
    · rw [isHarmless_cons_iff, isHarmless_cons_iff]
      exact ⟨fun _ => rfl, fun h => absurd h (by decide), ih⟩
    · rename_i hsafe
      rw [isHarmless_cons_iff]
      refine ⟨fun hc => ?_, ih⟩
      cases hhazard : isHazard (escapeHazards cs) with
      | false => rfl
      | true => exact absurd ⟨hc, isHazard_of_escapeHazards hhazard⟩ hsafe

theorem escapeHazards_of_isHarmless {cs : List Char} (h : isHarmless cs) :
    escapeHazards cs = cs := by
  induction cs with
  | nil => rfl
  | cons c cs ih =>
    obtain ⟨hhead, hcs⟩ := isHarmless_cons_iff.1 h
    have hsafe : ¬ (c = '<' ∧ isHazard cs) := by
      rintro ⟨hc, hhazard⟩
      rw [hhead hc] at hhazard
      cases hhazard
    rw [escapeHazards, if_neg hsafe, ih hcs]

theorem length_le_escapeHazards (cs : List Char) : cs.length ≤ (escapeHazards cs).length := by
  induction cs with
  | nil => exact Nat.le_refl 0
  | cons c cs ih =>
    rw [escapeHazards]
    split
    · simp only [List.length_cons]
      omega
    · simp only [List.length_cons]
      omega

theorem isHarmless_classicScript (source : String) :
    isHarmless (classicScript source).toList := by
  rw [classicScript, defuse, String.toList_ofList]
  exact isHarmless_escapeHazards _

theorem startsFolded_append {word cs rest : List Char} (h : startsFolded word cs) :
    startsFolded word (cs ++ rest) := by
  induction word generalizing cs with
  | nil => rfl
  | cons w ws ih =>
    cases cs with
    | nil => cases h
    | cons c cs =>
      simp only [List.cons_append, startsFolded, Bool.and_eq_true] at h ⊢
      exact ⟨h.1, ih h.2⟩

theorem isHazard_append {cs rest : List Char} (h : isHazard cs) : isHazard (cs ++ rest) := by
  unfold isHazard at h
  split at h
  · exact startsFolded_append h
  · rfl
  · cases h

theorem isHarmless_of_append_left {u v : List Char} (h : isHarmless (u ++ v)) : isHarmless u := by
  induction u with
  | nil => rfl
  | cons c cs ih =>
    rw [List.cons_append, isHarmless_cons_iff] at h
    obtain ⟨hhead, hcs⟩ := h
    refine isHarmless_cons_iff.2 ⟨fun hc => ?_, ih hcs⟩
    cases hhazard : isHazard cs with
    | false => rfl
    | true =>
      have happend : isHazard (cs ++ v) := isHazard_append hhazard
      rw [hhead hc] at happend
      cases happend

theorem foldCase_newline : foldCase '\n' = '\n' := by
  decide

theorem startsFolded_newline {word cs rest : List Char} (hword : '\n' ∉ word)
    (h : startsFolded word (cs ++ '\n' :: rest)) : startsFolded word cs := by
  induction word generalizing cs with
  | nil => rfl
  | cons w ws ih =>
    obtain ⟨hw, hws⟩ := List.ne_and_not_mem_of_not_mem_cons hword
    cases cs with
    | nil =>
      simp only [List.nil_append, startsFolded, Bool.and_eq_true, foldCase_newline,
        beq_iff_eq] at h
      exact absurd h.1 hw
    | cons c cs =>
      simp only [List.cons_append, startsFolded, Bool.and_eq_true] at h ⊢
      exact ⟨h.1, ih hws h.2⟩

theorem eq_cons_of_append_newline {d : Char} {cs rest tail : List Char} (hd : d ≠ '\n')
    (h : cs ++ '\n' :: rest = d :: tail) :
    ∃ more, cs = d :: more ∧ more ++ '\n' :: rest = tail := by
  cases cs with
  | nil => exact absurd (List.cons.inj h).1.symm hd
  | cons c cs =>
    obtain ⟨rfl, htail⟩ := List.cons.inj h
    exact ⟨cs, rfl, htail⟩

theorem isHazard_of_append_newline {cs rest : List Char} (h : isHazard (cs ++ '\n' :: rest)) :
    isHazard cs := by
  generalize hout : cs ++ '\n' :: rest = out at h
  unfold isHazard at h
  split at h
  · obtain ⟨more, rfl, rfl⟩ := eq_cons_of_append_newline (by decide) hout
    exact startsFolded_newline (by decide) h
  · obtain ⟨tail, rfl, hfirst⟩ := eq_cons_of_append_newline (by decide) hout
    obtain ⟨more, rfl, hsecond⟩ := eq_cons_of_append_newline (by decide) hfirst
    obtain ⟨last, rfl, -⟩ := eq_cons_of_append_newline (by decide) hsecond
    rfl
  · cases h

/-- Whatever harmless text comes next, the whole is harmless. -/
def Closed (text : List Char) : Prop :=
  ∀ rest, isHarmless rest → isHarmless (text ++ rest)

theorem closed_nil : Closed [] :=
  fun _ h => h

theorem Closed.isHarmless {text : List Char} (h : Closed text) : isHarmless text := by
  have hall := h [] rfl
  rwa [List.append_nil] at hall

theorem Closed.append {u v : List Char} (hu : Closed u) (hv : Closed v) : Closed (u ++ v) := by
  intro rest hrest
  rw [List.append_assoc]
  exact hu _ (hv rest hrest)

theorem closed_newline {body : List Char} (h : isHarmless body) : Closed (body ++ ['\n']) := by
  intro rest hrest
  rw [List.append_assoc, List.singleton_append]
  induction body with
  | nil => exact isHarmless_cons_iff.2 ⟨fun hc => absurd hc (by decide), hrest⟩
  | cons c cs ih =>
    obtain ⟨hhead, hcs⟩ := isHarmless_cons_iff.1 h
    refine isHarmless_cons_iff.2 ⟨fun hc => ?_, ih hcs⟩
    cases hhazard : isHazard (cs ++ '\n' :: rest) with
    | false => rfl
    | true =>
      have hbefore := isHazard_of_append_newline hhazard
      rw [hhead hc] at hbefore
      cases hbefore

theorem closed_of_not_mem {text : List Char} (h : '<' ∉ text) : Closed text := by
  intro rest hrest
  induction text with
  | nil => exact hrest
  | cons c cs ih =>
    obtain ⟨hc, hcs⟩ := List.ne_and_not_mem_of_not_mem_cons h
    exact isHarmless_cons_iff.2 ⟨fun heq => absurd heq.symm hc, ih hcs⟩

end LivePreview.Source
