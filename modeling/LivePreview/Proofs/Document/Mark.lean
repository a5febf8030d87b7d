/-!
Occurrences of a word in a page. A text is sealed for a word when no text put after it makes an
occurrence that starts in it, so occurrences can be counted piece by piece.
-/

namespace LivePreview.Document

def startsAnyCase : List Char → List Char → Bool
  | [], _ => true
  | _ :: _, [] => false
  | w :: ws, c :: cs => c.toLower == w && startsAnyCase ws cs

def occurrences (word : List Char) : List Char → Nat
  | [] => 0
  | c :: cs => occurrences word cs + if startsAnyCase word (c :: cs) then 1 else 0

/-- Whether the text starts with the word does not depend on what follows the text. -/
def decides : List Char → List Char → Bool
  | [], _ => true
  | _ :: _, [] => false
  | w :: ws, c :: cs => c.toLower != w || decides ws cs

def isSealed (word : List Char) : List Char → Bool
  | [] => true
  | c :: cs => decides word (c :: cs) && isSealed word cs

variable {word u v : List Char}

theorem startsAnyCase_append (h : decides word u) :
    startsAnyCase word (u ++ v) = startsAnyCase word u := by
  induction word generalizing u with
  | nil => rfl
  | cons w ws ih =>
    cases u with
    | nil => simp [decides] at h
    | cons c cs =>
      simp only [decides, Bool.or_eq_true, bne_iff_ne, ne_eq] at h
      simp only [List.cons_append, startsAnyCase]
      rcases h with h | h
      · have hne : (c.toLower == w) = false := by simpa using h
        rw [hne, Bool.false_and, Bool.false_and]
      · rw [ih h]

theorem startsAnyCase_self_append (h : word.map Char.toLower = word) :
    startsAnyCase word (word ++ v) := by
  induction word with
  | nil => rfl
  | cons w ws ih =>
    obtain ⟨hw, hws⟩ := List.cons.inj h
    simp [startsAnyCase, hw, ih hws]

theorem decides_append (h : decides word u) : decides word (u ++ v) := by
  induction word generalizing u with
  | nil => rfl
  | cons w ws ih =>
    cases u with
    | nil => simp [decides] at h
    | cons c cs =>
      simp only [decides, Bool.or_eq_true] at h
      simp only [List.cons_append, decides, Bool.or_eq_true]
      exact h.imp id ih

theorem isSealed_append (hu : isSealed word u) (hv : isSealed word v) :
    isSealed word (u ++ v) := by
  induction u with
  | nil => exact hv
  | cons c cs ih =>
    simp only [isSealed, Bool.and_eq_true] at hu
    simp only [List.cons_append, isSealed, Bool.and_eq_true]
    exact ⟨decides_append hu.1, ih hu.2⟩

theorem decides_of_isSealed {c : Char} {cs : List Char} (h : isSealed word (u ++ c :: cs)) :
    decides word (c :: cs) := by
  induction u with
  | nil =>
    simp only [List.nil_append, isSealed, Bool.and_eq_true] at h
    exact h.1
  | cons d ds ih =>
    simp only [List.cons_append, isSealed, Bool.and_eq_true] at h
    exact ih h.2

theorem occurrences_append (h : isSealed word u) :
    occurrences word (u ++ v) = occurrences word u + occurrences word v := by
  induction u with
  | nil => simp [occurrences]
  | cons c cs ih =>
    simp only [isSealed, Bool.and_eq_true] at h
    have hhead := startsAnyCase_append (v := v) h.1
    rw [List.cons_append] at hhead
    simp only [List.cons_append, occurrences, hhead, ih h.2]
    omega

theorem occurrences_pos {c : Char} {cs : List Char} (h : startsAnyCase word (c :: cs)) :
    0 < occurrences word (u ++ c :: cs) := by
  induction u with
  | nil => simp [occurrences, h]
  | cons d ds ih =>
    rw [List.cons_append, occurrences]
    omega

theorem length_le_of_startsAnyCase {before after : List Char}
    (hsealed : isSealed word before) (hnone : occurrences word before = 0)
    (heq : before ++ after = u ++ v) (hv : startsAnyCase word v) :
    before.length ≤ u.length := by
  rcases List.append_eq_append_iff.1 heq with ⟨w, hu, -⟩ | ⟨w, hbefore, hw⟩
  · simp [hu]
  · cases w with
    | nil => simp [hbefore]
    | cons c cs =>
      subst hbefore
      have hdecided := decides_of_isSealed hsealed
      rw [hw, startsAnyCase_append hdecided] at hv
      have hpos := occurrences_pos (u := u) hv
      omega

theorem toLower_eq {c d : Char} (hd : d.val < 97 ∨ 122 < d.val) (h : c.toLower = d) : c = d := by
  unfold Char.toLower at h
  split at h
  · rename_i hupper
    subst h
    obtain ⟨hA, hZ⟩ := hupper
    simp only [ge_iff_le, UInt32.le_iff_toNat_le, UInt32.lt_iff_toNat_lt, UInt32.toNat_add,
      UInt32.toNat_sub, Char.reduceVal, UInt32.reduceToNat] at hA hZ hd
    omega
  · exact h

structure IsMark (word : List Char) : Prop where
  head : ∃ d rest, word = '<' :: d :: rest ∧ d ≠ ' '
  noNewline : '\n' ∉ word

theorem decides_newline (h : '\n' ∉ word) : decides word (u ++ ['\n']) := by
  induction word generalizing u with
  | nil => rfl
  | cons w ws ih =>
    obtain ⟨hw, hws⟩ := List.ne_and_not_mem_of_not_mem_cons h
    cases u with
    | nil => simp [decides, hw]
    | cons c cs =>
      have hrest : decides ws (cs ++ ['\n']) := ih hws
      simp [decides, hrest]

theorem isSealed_newline (h : '\n' ∉ word) (text : List Char) :
    isSealed word (text ++ ['\n']) := by
  induction text with
  | nil =>
    have hend : decides word ['\n'] := decides_newline (u := []) h
    simp [isSealed, hend]
  | cons c cs ih =>
    have hhead : decides word (c :: cs ++ ['\n']) := decides_newline h
    simp only [List.cons_append] at hhead ⊢
    simp [isSealed, hhead, ih]

theorem startsAnyCase_newline (h : '\n' ∉ word) :
    startsAnyCase word (u ++ ['\n']) = startsAnyCase word u := by
  induction word generalizing u with
  | nil => rfl
  | cons w ws ih =>
    obtain ⟨hw, hws⟩ := List.ne_and_not_mem_of_not_mem_cons h
    cases u with
    | nil => simp [startsAnyCase, hw]
    | cons c cs => simp [startsAnyCase, ih hws]

theorem occurrences_newline (hne : word ≠ []) (h : '\n' ∉ word) (text : List Char) :
    occurrences word (text ++ ['\n']) = occurrences word text := by
  induction text with
  | nil =>
    obtain ⟨w, ws, rfl⟩ := List.exists_cons_of_ne_nil hne
    have hend := startsAnyCase_newline (u := []) h
    rw [List.nil_append] at hend
    rw [List.nil_append, occurrences, occurrences, hend]
    rfl
  | cons c cs ih =>
    have hhead := startsAnyCase_newline (u := c :: cs) h
    rw [List.cons_append] at hhead
    simp [occurrences, hhead, ih]

/-- Every `<` is followed by a blank, as a comparison writes it. -/
def isCalm : List Char → Bool
  | [] => true
  | c :: cs => (c != '<' || cs.head?.any (· == ' ')) && isCalm cs

theorem isCalm_append (hu : isCalm u) (hv : isCalm v) : isCalm (u ++ v) := by
  induction u with
  | nil => exact hv
  | cons c cs ih =>
    simp only [isCalm, Bool.and_eq_true, Bool.or_eq_true] at hu
    simp only [List.cons_append, isCalm, Bool.and_eq_true, Bool.or_eq_true]
    refine ⟨hu.1.imp id fun h => ?_, ih hu.2⟩
    cases cs with
    | nil => simp at h
    | cons d ds => exact h

theorem isCalm_of_not_mem (h : '<' ∉ u) : isCalm u := by
  induction u with
  | nil => rfl
  | cons c cs ih =>
    obtain ⟨hc, hcs⟩ := List.ne_and_not_mem_of_not_mem_cons h
    simp [isCalm, Ne.symm hc, ih hcs]

theorem isCalm_flatten {texts : List (List Char)} (h : ∀ text ∈ texts, isCalm text) :
    isCalm texts.flatten := by
  induction texts with
  | nil => rfl
  | cons text texts ih =>
    have hhead : isCalm text := h text (by simp)
    have hrest : isCalm texts.flatten := ih fun t ht => h t (by simp [ht])
    exact isCalm_append hhead hrest

theorem IsMark.rules_out (hword : IsMark word) {c : Char} {cs : List Char}
    (h : isCalm (c :: cs)) :
    decides word (c :: cs) ∧ startsAnyCase word (c :: cs) = false := by
  obtain ⟨d, rest, rfl, hd⟩ := hword.head
  simp only [isCalm, Bool.and_eq_true, Bool.or_eq_true, bne_iff_ne, ne_eq] at h
  rcases h.1 with hc | hblank
  · have hlower : c.toLower ≠ '<' := fun heq => hc (toLower_eq (by decide) heq)
    simp [decides, startsAnyCase, hlower]
  · cases cs with
    | nil => simp at hblank
    | cons b bs =>
      obtain rfl : b = ' ' := by simpa using hblank
      simp [decides, startsAnyCase, Ne.symm hd]

theorem IsMark.isSealed_of_isCalm (hword : IsMark word) (h : isCalm u) : isSealed word u := by
  induction u with
  | nil => rfl
  | cons c cs ih =>
    have hcs : isCalm cs := (Bool.and_eq_true_iff.1 h).2
    simp [isSealed, (hword.rules_out h).1, ih hcs]

theorem IsMark.occurrences_of_isCalm (hword : IsMark word) (h : isCalm u) :
    occurrences word u = 0 := by
  induction u with
  | nil => rfl
  | cons c cs ih =>
    have hcs : isCalm cs := (Bool.and_eq_true_iff.1 h).2
    simp [occurrences, (hword.rules_out h).2, ih hcs]

end LivePreview.Document
