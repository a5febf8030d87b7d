import Mathlib.Data.List.Basic
import LivePreview.Text.Word
import LivePreview.Proofs.Text.Lines

namespace LivePreview.Text

def withReturns (cs : List Char) : List Char :=
  cs.flatMap fun c => if c = '\n' then ['\r', '\n'] else [c]

variable {cs u v rest : List Char} {c : Char}

theorem withReturns_nil : withReturns [] = [] :=
  rfl

theorem withReturns_newline : withReturns ('\n' :: cs) = '\r' :: '\n' :: withReturns cs :=
  rfl

theorem withReturns_cons (h : c ≠ '\n') : withReturns (c :: cs) = c :: withReturns cs := by
  simp [withReturns, h]

theorem withReturns_append (u v : List Char) :
    withReturns (u ++ v) = withReturns u ++ withReturns v :=
  List.flatMap_append

theorem withReturns_of_not_mem (h : '\n' ∉ cs) : withReturns cs = cs := by
  induction cs with
  | nil => rfl
  | cons c cs ih =>
    obtain ⟨hc, hcs⟩ := List.ne_and_not_mem_of_not_mem_cons h
    rw [withReturns_cons (Ne.symm hc), ih hcs]

theorem withReturns_flatten (ls : List (List Char)) :
    withReturns ls.flatten = (ls.map withReturns).flatten := by
  induction ls with
  | nil => rfl
  | cons l ls ih => rw [List.flatten_cons, withReturns_append, ih, List.map_cons, List.flatten_cons]

theorem withReturns_eq_append (hu : '\n' ∉ u) (hreturn : c ≠ '\r') (hnewline : c ≠ '\n') :
    withReturns cs = u ++ c :: v ↔ ∃ w, cs = u ++ c :: w ∧ withReturns w = v := by
  constructor
  · intro h
    induction u generalizing cs with
    | nil =>
      cases cs with
      | nil => cases h
      | cons d cs =>
        by_cases hd : d = '\n'
        · subst hd
          exact absurd (List.cons.inj h).1.symm hreturn
        · rw [withReturns_cons hd] at h
          obtain ⟨rfl, rfl⟩ := List.cons.inj h
          exact ⟨cs, rfl, rfl⟩
    | cons b u ih =>
      have htail : '\n' ∉ u := List.not_mem_of_not_mem_cons hu
      cases cs with
      | nil => cases h
      | cons d cs =>
        by_cases hd : d = '\n'
        · subst hd
          obtain ⟨-, hrest⟩ := List.cons.inj h
          cases u with
          | nil => exact absurd (List.cons.inj hrest).1.symm hnewline
          | cons a u => exact absurd (List.cons.inj hrest).1 (List.ne_of_not_mem_cons htail)
        · rw [withReturns_cons hd] at h
          obtain ⟨rfl, hrest⟩ := List.cons.inj h
          obtain ⟨w, rfl, hw⟩ := ih htail hrest
          exact ⟨w, rfl, hw⟩
  · rintro ⟨w, rfl, rfl⟩
    rw [withReturns_append, withReturns_of_not_mem hu, withReturns_cons hnewline]

theorem withReturns_append_of_not_mem (h : '\n' ∉ u) :
    withReturns (u ++ v) = u ++ withReturns v := by
  rw [withReturns_append, withReturns_of_not_mem h]

theorem head?_withReturns (hreturn : c ≠ '\r') (hnewline : c ≠ '\n') :
    (withReturns cs).head? = some c ↔ cs.head? = some c := by
  simp only [List.head?_eq_some_iff]
  constructor
  · rintro ⟨v, hv⟩
    obtain ⟨w, hw, -⟩ := (withReturns_eq_append List.not_mem_nil hreturn hnewline).1 hv
    exact ⟨w, hw⟩
  · rintro ⟨w, rfl⟩
    exact ⟨withReturns w, withReturns_cons hnewline⟩

theorem tail_withReturns (hnewline : c ≠ '\n') (h : cs.head? = some c) :
    (withReturns cs).tail = withReturns cs.tail := by
  obtain ⟨rest, rfl⟩ := List.head?_eq_some_iff.1 h
  rw [withReturns_cons hnewline]
  rfl

section Blanks

theorem dropWhile_withReturns {p : Char → Bool} (hreturn : p '\r' = p '\n') (hnewline : p '\n') :
    (withReturns cs).dropWhile p = withReturns (cs.dropWhile p) := by
  induction cs with
  | nil => rfl
  | cons c cs ih =>
    by_cases hc : c = '\n'
    · subst hc
      simp [withReturns_newline, hreturn, hnewline, ih]
    · rw [withReturns_cons hc]
      cases hp : p c with
      | true => simp [hp, ih]
      | false => simp [hp, withReturns_cons hc]

theorem dropBlanks_withReturns : dropBlanks (withReturns cs) = withReturns (dropBlanks cs) :=
  dropWhile_withReturns rfl rfl

theorem takeWhile_withReturns : (withReturns cs).takeWhile isBlank =
    withReturns (cs.takeWhile isBlank) := by
  have hcut : (withReturns cs).takeWhile isBlank ++ dropBlanks (withReturns cs) =
      withReturns (cs.takeWhile isBlank) ++ dropBlanks (withReturns cs) := by
    rw [dropBlanks, List.takeWhile_append_dropWhile, ← dropBlanks, dropBlanks_withReturns,
      ← withReturns_append, dropBlanks, List.takeWhile_append_dropWhile]
  exact List.append_cancel_right hcut

theorem startsBlank_withReturns : startsBlank (withReturns cs) = startsBlank cs := by
  cases cs with
  | nil => rfl
  | cons c cs =>
    by_cases hc : c = '\n'
    · subst hc
      rfl
    · rw [withReturns_cons hc]
      rfl

theorem endsWord_withReturns : endsWord (withReturns cs) = endsWord cs := by
  cases cs with
  | nil => rfl
  | cons c cs =>
    by_cases hc : c = '\n'
    · subst hc
      rfl
    · rw [withReturns_cons hc]
      rfl

end Blanks

def EndsNoLine (word : List Char) : Prop :=
  '\n' ∉ word ∧ '\r' ∉ word

theorem isPrefixOf?_withReturns {word : List Char} (h : EndsNoLine word) :
    word.isPrefixOf? (withReturns cs) = (word.isPrefixOf? cs).map withReturns := by
  induction word generalizing cs with
  | nil => cases cs <;> rfl
  | cons w word ih =>
    obtain ⟨hnewline, hword⟩ := List.ne_and_not_mem_of_not_mem_cons h.1
    obtain ⟨hreturn, hword'⟩ := List.ne_and_not_mem_of_not_mem_cons h.2
    cases cs with
    | nil => rfl
    | cons c cs =>
      by_cases hc : c = '\n'
      · subst hc
        simp [withReturns_newline, List.isPrefixOf?, Ne.symm hnewline, Ne.symm hreturn]
      · rw [withReturns_cons hc, List.isPrefixOf?, List.isPrefixOf?]
        split
        · exact ih ⟨hword, hword'⟩
        · rfl

theorem lines_withReturns : lines (withReturns cs) = (lines cs).map withReturns := by
  induction cs with
  | nil => rfl
  | cons c cs ih =>
    by_cases hc : c = '\n'
    · subst hc
      simp [withReturns_newline, lines, ih, withReturns_nil]
    · rw [withReturns_cons hc, lines, if_neg hc, ih, lines, if_neg hc]
      cases lines cs with
      | nil => simp [withReturns_cons hc, withReturns_nil]
      | cons l ls => simp [withReturns_cons hc]

theorem OneLine.cases (h : OneLine cs) :
    '\n' ∉ cs ∨ ∃ body, cs = body ++ ['\n'] ∧ '\n' ∉ body := by
  by_cases hmem : '\n' ∈ cs
  · obtain ⟨body, rest, rfl, hbody⟩ := List.eq_append_cons_of_mem hmem
    cases rest with
    | nil => exact .inr ⟨body, rfl, hbody⟩
    | cons c rest =>
      have hbefore := h (body ++ ['\n']) (c :: rest) (by simp) (List.cons_ne_nil c rest)
      simp at hbefore
  · exact .inl hmem

theorem OneLine.body_withReturns (h : OneLine cs) : Line.body (withReturns cs) = Line.body cs := by
  rcases h.cases with hmem | ⟨body, rfl, hbody⟩
  · rw [withReturns_of_not_mem hmem]
  · have hreturn : ∀ c ∈ ['\r', '\n'], isLineEnd c := by simp [isLineEnd]
    have hnewline : ∀ c ∈ ['\n'], isLineEnd c := by simp [isLineEnd]
    rw [withReturns_append, withReturns_of_not_mem hbody]
    exact (dropEndWhile_append_of_all hreturn).trans (dropEndWhile_append_of_all hnewline).symm

end LivePreview.Text
