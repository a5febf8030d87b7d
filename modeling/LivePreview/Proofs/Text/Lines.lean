import Mathlib.Data.List.DropRight
import LivePreview.Text.Lines

namespace LivePreview.Text

inductive Cut : List Line → Prop where
  | nil : Cut []
  | last {body : List Char} : body ≠ [] → '\n' ∉ body → Cut [body]
  | cons {body : List Char} {ls : List Line} :
      '\n' ∉ body → Cut ls → Cut ((body ++ ['\n']) :: ls)

theorem cut_lines (cs : List Char) : Cut (lines cs) := by
  induction cs with
  | nil => exact .nil
  | cons c cs ih =>
    rw [lines]
    split
    · have hempty : '\n' ∉ ([] : List Char) := List.not_mem_nil
      exact .cons hempty ih
    · rename_i hc
      have hcons {body : List Char} (h : '\n' ∉ body) : '\n' ∉ c :: body :=
        List.not_mem_cons_of_ne_of_not_mem (Ne.symm hc) h
      generalize lines cs = ls at ih
      cases ih with
      | nil => exact .last (by simp) (hcons (by simp))
      | last hne hbody => exact .last (by simp) (hcons hbody)
      | cons hbody hls => exact .cons (hcons hbody) hls

def OneLine (line : List Char) : Prop :=
  ∀ u v, line = u ++ v → v ≠ [] → '\n' ∉ u

theorem oneLine_of_not_mem {body : List Char} (h : '\n' ∉ body) : OneLine body := by
  rintro u v rfl - hu
  exact h (List.mem_append_left v hu)

theorem oneLine_newline {body : List Char} (h : '\n' ∉ body) : OneLine (body ++ ['\n']) := by
  intro u v heq hv hu
  rcases List.eq_nil_or_concat v with rfl | ⟨w, c, rfl⟩
  · exact hv rfl
  · rw [List.concat_eq_append, ← List.append_assoc] at heq
    obtain ⟨rfl, -⟩ := List.append_inj' heq rfl
    exact h (List.mem_append_left w hu)

theorem OneLine.suffix {u v : List Char} (h : OneLine (u ++ v)) : OneLine v := by
  rintro x y rfl hy hx
  exact h (u ++ x) y (by rw [List.append_assoc]) hy (List.mem_append_right u hx)

theorem OneLine.prefix_notMem {u v : List Char} (h : OneLine (u ++ v)) (hv : v ≠ []) : '\n' ∉ u :=
  h u v rfl hv

theorem Cut.oneLine {ls : List Line} {l : Line} (hcut : Cut ls) (hl : l ∈ ls) : OneLine l := by
  induction hcut with
  | nil => cases hl
  | last _ hbody =>
    obtain rfl := List.mem_singleton.1 hl
    exact oneLine_of_not_mem hbody
  | cons hbody _ ih =>
    rcases List.mem_cons.1 hl with rfl | hl
    · exact oneLine_newline hbody
    · exact ih hl

theorem Cut.ne_nil {ls : List Line} {l : Line} (hcut : Cut ls) (hl : l ∈ ls) : l ≠ [] := by
  induction hcut with
  | nil => cases hl
  | last hne _ =>
    obtain rfl := List.mem_singleton.1 hl
    exact hne
  | cons _ _ ih =>
    rcases List.mem_cons.1 hl with rfl | hl
    · exact List.append_ne_nil_of_right_ne_nil _ (List.cons_ne_nil _ _)
    · exact ih hl

theorem lines_append_newline {body : List Char} (h : '\n' ∉ body) (rest : List Char) :
    lines (body ++ '\n' :: rest) = (body ++ ['\n']) :: lines rest := by
  induction body with
  | nil => simp [lines]
  | cons c body ih =>
    rw [List.mem_cons, not_or] at h
    rw [List.cons_append, lines, if_neg (Ne.symm h.1), ih h.2]
    rfl

theorem lines_of_not_mem {body : List Char} (h : '\n' ∉ body) (hne : body ≠ []) :
    lines body = [body] := by
  induction body with
  | nil => exact absurd rfl hne
  | cons c body ih =>
    rw [List.mem_cons, not_or] at h
    rw [lines, if_neg (Ne.symm h.1)]
    cases body with
    | nil => rfl
    | cons d body => rw [ih h.2 (List.cons_ne_nil d body)]

def WholeLines (text : List Char) : Prop :=
  text = [] ∨ ∃ body, text = body ++ ['\n']

theorem lines_append {text : List Char} (h : WholeLines text) (rest : List Char) :
    lines (text ++ rest) = lines text ++ lines rest := by
  rcases h with rfl | ⟨body, rfl⟩
  · rfl
  · induction body with
    | nil => simp [lines]
    | cons c body ih =>
      simp only [List.cons_append] at ih ⊢
      rw [lines, lines, ih]
      split
      · rfl
      · cases hlines : lines (body ++ ['\n']) with
        | nil =>
          have hflatten := flatten_lines (body ++ ['\n'])
          rw [hlines] at hflatten
          simp at hflatten
        | cons l ls => rfl

variable {p : Char → Bool} {u v : List Char}

theorem dropEndWhile_of_all (h : ∀ c ∈ v, p c) : dropEndWhile p v = [] := by
  induction v with
  | nil => rfl
  | cons c v ih =>
    rw [dropEndWhile, ih fun d hd => h d (List.mem_cons_of_mem c hd)]
    simp [h c List.mem_cons_self]

theorem dropEndWhile_append_of_all (h : ∀ c ∈ v, p c) :
    dropEndWhile p (u ++ v) = dropEndWhile p u := by
  induction u with
  | nil => exact dropEndWhile_of_all h
  | cons c u ih => rw [List.cons_append, dropEndWhile, dropEndWhile, ih]

theorem dropEndWhile_append_cons {c : Char} (h : p c = false) :
    dropEndWhile p (u ++ c :: v) = u ++ c :: dropEndWhile p v := by
  induction u with
  | nil =>
    rw [List.nil_append, dropEndWhile]
    split
    · rename_i hnil
      simp [h, hnil]
    · rename_i hcons
      rw [List.nil_append, hcons]
  | cons d u ih =>
    rw [List.cons_append, dropEndWhile, ih]
    cases u <;> rfl

theorem dropEndWhile_eq_rdropWhile (p : Char → Bool) (cs : List Char) :
    dropEndWhile p cs = cs.rdropWhile p := by
  induction cs using List.reverseRecOn with
  | nil => rfl
  | append_singleton cs c ih =>
    by_cases hc : p c
    · rw [List.rdropWhile_concat_pos p cs c hc, ← ih]
      exact dropEndWhile_append_of_all (List.forall_mem_singleton.2 hc)
    · rw [List.rdropWhile_concat_neg p cs c hc]
      exact dropEndWhile_append_cons (by simpa using hc)

theorem isPrefix_dropEndWhile (p : Char → Bool) (v : List Char) : dropEndWhile p v <+: v := by
  induction v with
  | nil => exact List.prefix_rfl
  | cons c v ih =>
    rw [dropEndWhile]
    split
    · split
      · exact List.nil_prefix
      · exact ⟨v, rfl⟩
    · rename_i hcons
      rw [← hcons]
      exact (List.prefix_cons_inj c).2 ih

theorem mem_of_mem_dropEndWhile {c : Char} (h : c ∈ dropEndWhile p v) : c ∈ v :=
  (isPrefix_dropEndWhile p v).mem h

theorem mem_dropEndWhile {c : Char} (h : c ∈ v) (hc : p c = false) : c ∈ dropEndWhile p v := by
  obtain ⟨before, after, rfl⟩ := List.append_of_mem h
  rw [dropEndWhile_append_cons hc]
  simp

end LivePreview.Text
