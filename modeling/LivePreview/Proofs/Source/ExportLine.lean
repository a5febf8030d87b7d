import Mathlib.Data.List.Basic
import LivePreview.Source.ExportLine
import LivePreview.Proofs.Text.Lines

/-!
What an export line becomes. A line that starts with the word `export` always changes; the new line
is a part of the old one that reaches to its end, behind words that hold no newline and no `<`.
-/

namespace LivePreview.Source

open LivePreview.Text

theorem takeWhile_append_dropBlanks (cs : List Char) :
    cs.takeWhile isBlank ++ dropBlanks cs = cs :=
  List.takeWhile_append_dropWhile

theorem isBlank_of_mem_takeWhile {cs : List Char} {c : Char} (h : c ∈ cs.takeWhile isBlank) :
    isBlank c := by
  exact List.all_eq_true.1 (List.all_takeWhile) c h

theorem takeWhile_ne_nil {cs : List Char} (h : startsBlank cs) : cs.takeWhile isBlank ≠ [] := by
  cases cs with
  | nil => cases h
  | cons c cs =>
    have hc : isBlank c := h
    simp [hc]

theorem afterWord_eq_some {word : String} {cs value : List Char}
    (h : afterWord word cs = some value) :
    ∃ gap, cs = word.toList ++ gap ++ value ∧ gap ≠ [] ∧ ∀ c ∈ gap, isBlank c := by
  unfold afterWord at h
  split at h
  · rename_i rest hrest
    split at h
    · rename_i hblank
      obtain rfl := Option.some.inj h
      refine ⟨rest.takeWhile isBlank, ?_, takeWhile_ne_nil hblank,
        fun _ => isBlank_of_mem_takeWhile⟩
      rw [← List.append_eq_of_isPrefixOf?_eq_some hrest, List.append_assoc, takeWhile_append_dropBlanks]
    · cases h
  · cases h

def isInert (cs : List Char) : Bool :=
  cs.all fun c => c != '\n' && c != '<'

theorem isInert_append {u v : List Char} (hu : isInert u) (hv : isInert v) : isInert (u ++ v) := by
  rw [isInert, List.all_append, Bool.and_eq_true]
  exact ⟨hu, hv⟩

theorem isInert_of_blank {u : List Char} (hblank : ∀ c ∈ u, isBlank c) (hline : '\n' ∉ u) :
    isInert u := by
  refine List.all_eq_true.2 fun c hc => ?_
  have hne : c ≠ '\n' := by
    rintro rfl
    exact hline hc
  have hlt : c ≠ '<' := by
    rintro rfl
    exact absurd (hblank _ hc) (by decide)
  simp [hne, hlt]

theorem isInert_rootName (name : RootName) : isInert name.text.toList := by
  cases name <;> decide

def Respells (line text : List Char) : Prop :=
  ∃ words rest, text = words ++ rest ∧ isInert words ∧ rest <:+ line

theorem respells_suffix {line text : List Char} (h : text <:+ line) : Respells line text :=
  ⟨[], text, rfl, rfl, h⟩

theorem Respells.behind {line text words before : List Char} (h : Respells line text)
    (hwords : isInert words) : Respells (before ++ line) (words ++ text) := by
  obtain ⟨more, rest, rfl, hmore, hrest⟩ := h
  refine ⟨words ++ more, rest, (List.append_assoc _ _ _).symm, isInert_append hwords hmore, ?_⟩
  exact hrest.trans (List.suffix_append before line)

theorem dropBlanks_suffix (cs : List Char) : dropBlanks cs <:+ cs :=
  List.dropWhile_suffix isBlank

theorem asyncMark {value : List Char} (hline : OneLine value)
    (hbody : (afterWord "async" value).getD value ≠ []) :
    ∃ mark, value = mark ++ (afterWord "async" value).getD value ∧ isInert mark ∧
      (mark = [] ∨ ∃ rest, mark = 'a' :: rest) := by
  cases h : afterWord "async" value with
  | none => exact ⟨[], rfl, rfl, .inl rfl⟩
  | some body =>
    rw [h] at hbody
    obtain ⟨gap, hvalue, -, hgap⟩ := afterWord_eq_some h
    have hnewline : '\n' ∉ "async".toList ++ gap := hline _ _ hvalue hbody
    have hgapLine : '\n' ∉ gap := fun hc => hnewline (List.mem_append_right _ hc)
    have hasync : isInert "async".toList := by decide
    exact ⟨"async".toList ++ gap, hvalue, isInert_append hasync (isInert_of_blank hgap hgapLine),
      .inr ⟨_, rfl⟩⟩

theorem anonymousFunction_eq_some {value words tail : List Char} (hline : OneLine value)
    (h : anonymousFunction value = some (words, tail)) :
    isInert words ∧ tail <:+ value ∧ ∃ c rest, words = c :: rest ∧ c ∈ ['a', 'f'] := by
  dsimp only [anonymousFunction] at h
  split at h
  · cases h
  · rename_i rest hrest
    have hbody := (List.append_eq_of_isPrefixOf?_eq_some hrest).symm
    have hne : (afterWord "async" value).getD value ≠ [] := by
      rw [hbody]
      exact List.cons_ne_nil _ _
    obtain ⟨mark, hvalue, hmark, hstart⟩ := asyncMark hline hne
    generalize (afterWord "async" value).getD value = body at hvalue hbody h
    have htake : value.take (value.length - body.length) = mark := by
      rw [hvalue, List.length_append, Nat.add_sub_cancel, List.take_left']
      rfl
    have hsuffix : rest <:+ value := by
      rw [hvalue, hbody, ← List.append_assoc]
      exact List.suffix_append _ rest
    have hfunction : isInert "function".toList := by decide
    have hstar : isInert "function*".toList := by decide
    have hletter (word : List Char) :
        ∃ c rest, mark ++ 'f' :: word = c :: rest ∧ c ∈ ['a', 'f'] := by
      rcases hstart with rfl | ⟨more, rfl⟩
      · exact ⟨'f', word, rfl, by simp⟩
      · exact ⟨'a', more ++ 'f' :: word, rfl, by simp⟩
    rw [htake] at h
    split at h
    · rename_i more hmore
      obtain ⟨rfl, rfl⟩ := Prod.mk.inj (Option.some.inj h)
      have hmoreSuffix : '(' :: more <:+ value := hmore ▸ (dropBlanks_suffix rest).trans hsuffix
      exact ⟨isInert_append hmark hfunction, hmoreSuffix, hletter _⟩
    · rename_i more hmore
      split at h
      · rename_i last hlast
        obtain ⟨rfl, rfl⟩ := Prod.mk.inj (Option.some.inj h)
        have hmoreSuffix : '*' :: more <:+ value := hmore ▸ (dropBlanks_suffix rest).trans hsuffix
        have hlastSuffix : '(' :: last <:+ more := hlast ▸ dropBlanks_suffix more
        exact ⟨isInert_append hmark hstar,
          hlastSuffix.trans ((List.suffix_cons '*' more).trans hmoreSuffix), hletter _⟩
      · cases h
    · cases h

theorem anonymousClass_eq_some {value tail : List Char} (h : anonymousClass value = some tail) :
    tail <:+ value := by
  unfold anonymousClass at h
  split at h
  · cases h
  · rename_i rest hrest
    have hsuffix : rest <:+ value := by
      rw [← List.append_eq_of_isPrefixOf?_eq_some hrest]
      exact List.suffix_append _ rest
    split at h
    · exact Option.some.inj h ▸ hsuffix
    · split at h
      · split at h
        · exact Option.some.inj h ▸ hsuffix
        · cases h
      · cases h

theorem declareAs_cases (name : RootName) {value : List Char} (hline : OneLine value) :
    declareAs name value = value ∨
      ∃ words rest, declareAs name value = words ++ rest ∧ isInert words ∧ rest <:+ value ∧
        ∃ c more, words = c :: more ∧ c ≠ 'e' := by
  have hname := isInert_rootName name
  have hgap : isInert [' '] := rfl
  unfold declareAs
  split
  · rename_i words tail hfunction
    obtain ⟨hwords, htail, c, more, rfl, hc⟩ := anonymousFunction_eq_some hline hfunction
    right
    refine ⟨c :: more ++ [' '] ++ name.text.toList, tail, ?_,
      isInert_append (isInert_append hwords hgap) hname, htail, c, _, rfl, ?_⟩
    · simp
    · rintro rfl
      exact absurd hc (by decide)
  · split
    · rename_i tail hclass
      have hword : isInert "class ".toList := by decide
      exact .inr ⟨"class ".toList ++ name.text.toList, tail, rfl, isInert_append hword hname,
        anonymousClass_eq_some hclass, 'c', _, rfl, by decide⟩
    · split
      · exact .inl rfl
      · have hword : isInert "var ".toList := by decide
        have hassign : isInert " = ".toList := by decide
        exact .inr ⟨"var ".toList ++ name.text.toList ++ " = ".toList, value, rfl,
          isInert_append (isInert_append hword hname) hassign, List.suffix_rfl, 'v', _, rfl,
          by decide⟩

def startsExport (line : List Char) : Bool :=
  (afterWord "export" (dropBlanks line)).isSome

theorem afterWord_append (word : String) (rest : List Char) :
    afterWord word (word.toList ++ rest) =
      if startsBlank rest then some (dropBlanks rest) else none := by
  rw [afterWord, List.isPrefixOf?_eq_some_iff_append_eq.2 rfl]

theorem dropBlanks_append_export {indent rest : List Char} (h : ∀ c ∈ indent, isBlank c) :
    dropBlanks (indent ++ "export".toList ++ rest) = "export".toList ++ rest := by
  rw [List.append_assoc, dropBlanks, List.dropWhile_append_of_pos h]
  rfl

theorem startsExport_iff {line : List Char} :
    startsExport line ↔ ∃ indent gap rest, line = indent ++ "export".toList ++ gap :: rest ∧
      (∀ c ∈ indent, isBlank c) ∧ isBlank gap := by
  constructor
  · intro h
    obtain ⟨exported, hexported⟩ := Option.isSome_iff_exists.1 h
    obtain ⟨gap, hsplit, hne, hgap⟩ := afterWord_eq_some hexported
    obtain ⟨c, cs, rfl⟩ := List.exists_cons_of_ne_nil hne
    refine ⟨line.takeWhile isBlank, c, cs ++ exported, ?_, fun _ => isBlank_of_mem_takeWhile,
      hgap c List.mem_cons_self⟩
    calc line = line.takeWhile isBlank ++ dropBlanks line := (takeWhile_append_dropBlanks line).symm
      _ = line.takeWhile isBlank ++ "export".toList ++ c :: (cs ++ exported) := by
        rw [hsplit, List.append_assoc, List.append_assoc, List.cons_append]
  · rintro ⟨indent, gap, rest, rfl, hindent, hgap⟩
    have hblank : startsBlank (gap :: rest) := hgap
    rw [startsExport, dropBlanks_append_export hindent, afterWord_append, if_pos hblank]
    rfl

theorem unexport_of_not_startsExport {free : Option RootName} {line : List Char}
    (h : startsExport line = false) : unexport free line = line := by
  unfold unexport
  split
  · rfl
  · rename_i exported hexported
    rw [startsExport, hexported] at h
    cases h

def exportedText (free : Option RootName) (exported : List Char) : List Char :=
  match afterWord "default" exported with
  | some value => defaultValue free value
  | none => exported

theorem unexport_of_afterWord {free : Option RootName} {line exported : List Char}
    (h : afterWord "export" (dropBlanks line) = some exported) :
    unexport free line = line.takeWhile isBlank ++ exportedText free exported := by
  unfold unexport
  split
  · rename_i hnone
    rw [h] at hnone
    cases hnone
  · rename_i found hfound
    obtain rfl := Option.some.inj (h.symm.trans hfound)
    exact rfl

theorem exportedText_cases (free : Option RootName) {exported : List Char}
    (hline : OneLine exported) :
    exportedText free exported <:+ exported ∨
      ∃ words rest, exportedText free exported = words ++ rest ∧ isInert words ∧
        rest <:+ exported ∧ ∃ c more, words = c :: more ∧ c ≠ 'e' := by
  unfold exportedText
  split
  · rename_i value hvalue
    obtain ⟨gap, hexported, -⟩ := afterWord_eq_some hvalue
    have hsuffix : value <:+ exported := hexported ▸ List.suffix_append _ value
    have hvalueLine : OneLine value := OneLine.suffix (hexported ▸ hline)
    cases free with
    | none => exact .inl hsuffix
    | some name =>
      rcases declareAs_cases name hvalueLine with
        hsame | ⟨words, rest, htext, hwords, hrest, hstart⟩
      · left
        rw [defaultValue, hsame]
        exact hsuffix
      · exact .inr ⟨words, rest, htext, hwords, hrest.trans hsuffix, hstart⟩
  · exact .inl List.suffix_rfl

theorem unexport_cases (free : Option RootName) {line : List Char} (hline : OneLine line)
    (h : startsExport line) :
    ∃ before gap exported text, line = before ++ ("export".toList ++ gap ++ exported) ∧
      unexport free line = before ++ text ∧ isInert before ∧
      (text <:+ exported ∨
        ∃ words rest, text = words ++ rest ∧ isInert words ∧ rest <:+ exported ∧
          ∃ c more, words = c :: more ∧ c ≠ 'e') := by
  obtain ⟨exported, hexported⟩ := Option.isSome_iff_exists.1 h
  obtain ⟨gap, hrest, -⟩ := afterWord_eq_some hexported
  have hsplit := takeWhile_append_dropBlanks line
  rw [hrest] at hsplit
  have hline' : OneLine (line.takeWhile isBlank ++ ("export".toList ++ gap ++ exported)) := by
    rw [hsplit]
    exact hline
  have hbefore : isInert (line.takeWhile isBlank) := by
    refine isInert_of_blank (fun _ => isBlank_of_mem_takeWhile) (hline'.prefix_notMem ?_)
    exact List.cons_ne_nil _ _
  exact ⟨line.takeWhile isBlank, gap, exported, _, hsplit.symm, unexport_of_afterWord hexported,
    hbefore, exportedText_cases free hline'.suffix.suffix⟩

theorem unexport_respells (free : Option RootName) {line : List Char} (hline : OneLine line) :
    Respells line (unexport free line) := by
  cases h : startsExport line with
  | false =>
    rw [unexport_of_not_startsExport h]
    exact respells_suffix List.suffix_rfl
  | true =>
    obtain ⟨before, gap, exported, text, hsplit, hunexport, hbefore, htext⟩ :=
      unexport_cases free hline h
    have hrespells : Respells ("export".toList ++ gap ++ exported) text := by
      have hsuffix : exported <:+ "export".toList ++ gap ++ exported := List.suffix_append _ _
      rcases htext with htext | ⟨words, rest, rfl, hwords, hrest, -⟩
      · exact respells_suffix (htext.trans hsuffix)
      · exact ⟨words, rest, rfl, hwords, hrest.trans hsuffix⟩
    rw [hunexport, hsplit]
    exact hrespells.behind hbefore

theorem unexport_ne_self (free : Option RootName) {line : List Char} (hline : OneLine line)
    (h : startsExport line) : unexport free line ≠ line := by
  obtain ⟨before, gap, exported, text, hsplit, hunexport, -, htext⟩ := unexport_cases free hline h
  intro hsame
  rw [hunexport, hsplit] at hsame
  have hkept : text = "export".toList ++ gap ++ exported := List.append_cancel_left hsame
  rcases htext with htext | ⟨words, rest, rfl, -, -, c, more, rfl, hc⟩
  · have hle := htext.length_le
    have hlonger : 0 < "export".toList.length := by decide
    rw [hkept, List.length_append, List.length_append] at hle
    omega
  · have hhead : c = 'e' := (List.cons.inj hkept).1
    exact hc hhead

theorem unexport_eq_self_iff (free : Option RootName) {line : List Char} (hline : OneLine line) :
    unexport free line = line ↔ startsExport line = false := by
  constructor
  · intro hsame
    cases h : startsExport line with
    | false => rfl
    | true => exact absurd hsame (unexport_ne_self free hline h)
  · exact unexport_of_not_startsExport

theorem mem_of_afterWord {word : String} {cs value : List Char} {c : Char}
    (h : afterWord word cs = some value) (hword : word.toList.all isNameChar) (hmem : c ∈ cs)
    (hblank : isBlank c = false) (hname : isNameChar c = false) : c ∈ value := by
  obtain ⟨gap, rfl, -, hgap⟩ := afterWord_eq_some h
  simp only [List.mem_append] at hmem
  rcases hmem with (hmem | hmem) | hmem
  · rw [List.all_eq_true.1 hword c hmem] at hname
    cases hname
  · rw [hgap c hmem] at hblank
    cases hblank
  · exact hmem

theorem declareAs_ne_nil (name : RootName) {value : List Char} (h : value ≠ []) :
    declareAs name value ≠ [] := by
  unfold declareAs
  split
  · simp
  · split
    · simp
    · split
      · exact h
      · simp

theorem unexport_ne_nil (free : Option RootName) {line : List Char} {c : Char} (hmem : c ∈ line)
    (hblank : isBlank c = false) (hname : isNameChar c = false) : unexport free line ≠ [] := by
  cases h : afterWord "export" (dropBlanks line) with
  | none =>
    have hstarts : startsExport line = false := by simp [startsExport, h]
    rw [unexport_of_not_startsExport hstarts]
    exact List.ne_nil_of_mem hmem
  | some exported =>
    have hdropped : c ∈ dropBlanks line := by
      rw [← takeWhile_append_dropBlanks line, List.mem_append] at hmem
      refine hmem.resolve_left fun hgap => ?_
      rw [isBlank_of_mem_takeWhile hgap] at hblank
      cases hblank
    have hexported := mem_of_afterWord h (by decide) hdropped hblank hname
    rw [unexport_of_afterWord h]
    refine List.append_ne_nil_of_right_ne_nil _ ?_
    unfold exportedText
    split
    · rename_i value hdefault
      have hvalue := List.ne_nil_of_mem (mem_of_afterWord hdefault (by decide) hexported hblank hname)
      cases free with
      | none => exact hvalue
      | some name => exact declareAs_ne_nil name hvalue
    · exact List.ne_nil_of_mem hexported

end LivePreview.Source
