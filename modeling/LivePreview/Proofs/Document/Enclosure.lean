import LivePreview.Proofs.Document.Section

namespace LivePreview.Document

open LivePreview.Source (isHazard isHarmless isHarmless_cons_iff isHarmless_escapeHazards)

variable {mark : Mark}

theorem startsFolded_of_startsAnyCase {word cs : List Char} (hword : 'ſ' ∉ word)
    (h : startsAnyCase word cs) : Source.startsFolded word cs := by
  induction word generalizing cs with
  | nil => rfl
  | cons w ws ih =>
    obtain ⟨hw, hws⟩ := List.ne_and_not_mem_of_not_mem_cons hword
    cases cs with
    | nil => cases h
    | cons c cs =>
      simp only [startsAnyCase, Source.startsFolded, Bool.and_eq_true, beq_iff_eq] at h ⊢
      refine ⟨?_, ih hws h.2⟩
      have hc : c ≠ 'ſ' := by
        rintro rfl
        exact hw h.1
      rw [Source.foldCase, if_neg hc, h.1]

theorem isHazard_of_startsAnyCase {c : Char} {cs : List Char} (hmark : mark ≠ .programStart)
    (h : startsAnyCase mark.word (c :: cs)) : c = '<' ∧ isHazard cs := by
  cases mark with
  | comment =>
    match cs with
    | [] => simp [Mark.word, startsAnyCase] at h
    | [_] => simp [Mark.word, startsAnyCase] at h
    | [_, _] => simp [Mark.word, startsAnyCase] at h
    | a :: b :: d :: rest =>
      simp only [Mark.word, startsAnyCase, Bool.and_eq_true, beq_iff_eq, Bool.and_true] at h
      obtain ⟨hc, ha, hb, hd⟩ := h
      obtain rfl := toLower_eq (by decide) ha
      obtain rfl := toLower_eq (by decide) hb
      obtain rfl := toLower_eq (by decide) hd
      exact ⟨toLower_eq (by decide) hc, rfl⟩
  | scriptEnd =>
    cases cs with
    | nil => simp [Mark.word, startsAnyCase] at h
    | cons a rest =>
      simp only [Mark.word, startsAnyCase, Bool.and_eq_true, beq_iff_eq] at h
      obtain ⟨hc, ha, hrest⟩ := h
      obtain rfl := toLower_eq (by decide) ha
      have hword : startsAnyCase ['s', 'c', 'r', 'i', 'p', 't'] rest := by
        simpa [startsAnyCase] using hrest
      exact ⟨toLower_eq (by decide) hc, startsFolded_of_startsAnyCase (by decide) hword⟩
  | programStart => exact absurd rfl hmark

theorem occurrences_of_isHarmless {cs : List Char} (hmark : mark ≠ .programStart)
    (h : isHarmless cs) : occurrences mark.word cs = 0 := by
  induction cs with
  | nil => rfl
  | cons c cs ih =>
    obtain ⟨hhead, hcs⟩ := isHarmless_cons_iff.1 h
    have hnone : startsAnyCase mark.word (c :: cs) = false := by
      cases hstarts : startsAnyCase mark.word (c :: cs) with
      | false => rfl
      | true =>
        obtain ⟨hc, hhazard⟩ := isHazard_of_startsAnyCase hmark hstarts
        rw [hhead hc] at hhazard
        cases hhazard
    simp [occurrences, hnone, ih hcs]

def programTag : String :=
  "<script type=\"text/plain\" id=\"lantern-source\">"

def programPieces (script : String) : List Piece :=
  [.markup programTag, .value ("\n" ++ script ++ "\n"), .markup "</script>\n"]

theorem joined_programPieces (script : String) :
    joined (programPieces script) = programElement script := by
  have hstart : programTag ++ "\n" = "<script type=\"text/plain\" id=\"lantern-source\">\n" :=
    String.ofList_append.symm
  have hend : "\n" ++ "</script>\n" = "\n</script>\n" := String.ofList_append.symm
  have hpieces : joined (programPieces script)
      = programTag ++ ("\n" ++ script ++ "\n") ++ "</script>\n" := rfl
  have hregroup (a b c d e : String) : a ++ (b ++ c ++ d) ++ e = a ++ b ++ c ++ (d ++ e) := by
    simp only [String.append_assoc]
  rw [hpieces, hregroup, hstart, hend]
  rfl

theorem toList_programBody (script : String) :
    ("\n" ++ script ++ "\n").toList = '\n' :: script.toList ++ ['\n'] := by
  rw [String.toList_append, String.toList_append]
  rfl

theorem quiet_programBody {script : List Char} (hmark : mark ≠ .programStart)
    (h : isHarmless script) :
    isSealed mark.word ('\n' :: script ++ ['\n']) ∧
      occurrences mark.word ('\n' :: script ++ ['\n']) = 0 := by
  have hline : isHarmless ('\n' :: script) :=
    isHarmless_cons_iff.2 ⟨fun hc => absurd hc (by decide), h⟩
  refine ⟨isSealed_newline mark.isMark.noNewline _, ?_⟩
  rw [occurrences_newline mark.word_ne_nil mark.isMark.noNewline]
  exact occurrences_of_isHarmless hmark hline

theorem counts_programPieces {script : String} (hmark : mark ≠ .programStart)
    (h : isHarmless script.toList) :
    Counts mark (programPieces script) mark.inEndTag := by
  have hbody : (Piece.value ("\n" ++ script ++ "\n")).Quiet mark.word := by
    rw [Piece.Quiet, toList_programBody]
    exact quiet_programBody hmark h
  have hend : Counts mark [.markup "</script>\n"] mark.inEndTag := by
    refine .ending (fun mark => ?_) .nil
    cases mark <;> exact ⟨rfl, rfl⟩
  have hrest : Counts mark [.value ("\n" ++ script ++ "\n"), .markup "</script>\n"] mark.inEndTag :=
    ⟨quiet_cons.2 ⟨hbody, hend.quiet⟩, hend.written_eq⟩
  rw [← Nat.zero_add mark.inEndTag]
  refine .markup ?_ ?_ hrest
  · cases mark with
    | programStart => exact absurd rfl hmark
    | _ => rfl
  · cases mark with
    | programStart => exact absurd rfl hmark
    | _ => rfl

def frontPieces (constants : Source.Constants) (options : Options) : List Piece :=
  environmentPieces options
    ++ scriptPieces consoleScript
    ++ libraryPieces options.libraries
    ++ [.markup "</head>\n<body>\n<div id=\"root\"></div>\n"]
    ++ scriptPieces (settingsScript options.api)
    ++ (if constants.isEmpty then [] else scriptPieces (constantsScript constants))

def buildPieces (script : String) (constants : Source.Constants) (options : Options) :
    List Piece :=
  frontPieces constants options
    ++ programPieces script
    ++ scriptPieces mountScript
    ++ [.markup "</body>\n</html>\n"]

theorem spell_append_eq {before after : List Piece} {first second : String}
    (hfirst : spell before = first.toList) (hsecond : spell after = second.toList) :
    spell (before ++ after) = (first ++ second).toList := by
  rw [spell_append, String.toList_append, hfirst, hsecond]

theorem spell_of_joined {pieces : List Piece} {text : String} (h : joined pieces = text) :
    spell pieces = text.toList := by
  rw [spell_eq_toList_joined, h]

theorem spell_markup (text : String) : spell [.markup text] = text.toList :=
  spell_of_joined rfl

theorem spell_buildPieces (script : String) (constants : Source.Constants) (options : Options) :
    spell (buildPieces script constants options)
      = (build script constants options).html.toList := by
  have hconstants : spell (if constants.isEmpty then [] else
        scriptPieces (constantsScript constants))
      = (if constants.isEmpty then "" else inlineScript (constantsScript constants)).toList := by
    split
    · rfl
    · exact spell_of_joined (joined_scriptPieces _)
  have hfront := spell_of_joined (joined_environmentPieces options)
  have hfront := spell_append_eq hfront (spell_of_joined (joined_scriptPieces consoleScript))
  have hfront := spell_append_eq hfront (spell_libraryPieces options.libraries)
  have hfront := spell_append_eq hfront (spell_markup "</head>\n<body>\n<div id=\"root\"></div>\n")
  have hfront := spell_append_eq hfront
    (spell_of_joined (joined_scriptPieces (settingsScript options.api)))
  have hfront := spell_append_eq hfront hconstants
  have hpage := spell_append_eq hfront (spell_of_joined (joined_programPieces script))
  have hpage := spell_append_eq hpage (spell_of_joined (joined_scriptPieces mountScript))
  exact spell_append_eq hpage (spell_markup "</body>\n</html>\n")

theorem counts_frontPieces (mark : Mark) (constants : Source.Constants) (options : Options) :
    Counts mark (frontPieces constants options)
      ((2 + options.libraries.required.length + options.libraries.optional.length
        + if constants.isEmpty then 0 else 1) * mark.inEndTag) := by
  have hconstants : Counts mark (if constants.isEmpty then [] else
        scriptPieces (constantsScript constants))
      (if constants.isEmpty then 0 else mark.inEndTag) := by
    split
    · exact .nil
    · exact counts_scriptPieces (isCalm_constantsScript constants)
  have hbody : Counts mark [.markup "</head>\n<body>\n<div id=\"root\"></div>\n"] 0 := by
    refine .plain (fun mark => ?_) .nil
    cases mark <;> exact ⟨rfl, rfl⟩
  have henvironment : Counts mark (environmentPieces options) 0 := counts_environmentPieces options
  have hfront := henvironment.append (counts_scriptPieces isCalm_consoleScript)
  have hfront := hfront.append (counts_libraryPieces options.libraries)
  have hfront := hfront.append hbody
  have hfront := hfront.append (counts_scriptPieces (isCalm_settingsScript options.api))
  have hfront := hfront.append hconstants
  refine ⟨hfront.quiet, hfront.written_eq.trans ?_⟩
  split
  · simp only [Nat.add_mul]
    omega
  · simp only [Nat.add_mul]
    omega

theorem counts_buildPieces {script : String} (constants : Source.Constants) (options : Options)
    (hmark : mark ≠ .programStart) (h : isHarmless script.toList) :
    Counts mark (buildPieces script constants options)
      ((4 + (if constants.isEmpty then 0 else 1) + options.libraries.required.length
        + options.libraries.optional.length) * mark.inEndTag) := by
  have hlast : Counts mark [.markup "</body>\n</html>\n"] 0 := by
    refine .plain (fun mark => ?_) .nil
    cases mark <;> exact ⟨rfl, rfl⟩
  have hpage := (counts_frontPieces mark constants options).append (counts_programPieces hmark h)
  have hpage := hpage.append (counts_scriptPieces isCalm_mountScript)
  have hpage := hpage.append hlast
  refine ⟨hpage.quiet, hpage.written_eq.trans ?_⟩
  simp only [Nat.add_mul]
  omega

theorem not_infix_of_occurrences_eq_zero {word cs : List Char}
    (hlower : word.map Char.toLower = word) (hne : word ≠ []) (h : occurrences word cs = 0) :
    ¬ word <:+: cs := by
  rintro ⟨u, v, rfl⟩
  obtain ⟨w, ws, rfl⟩ := List.exists_cons_of_ne_nil hne
  have hstarts : startsAnyCase (w :: ws) (w :: ws ++ v) := startsAnyCase_self_append hlower
  have hpos : 0 < occurrences (w :: ws) (u ++ w :: (ws ++ v)) := occurrences_pos hstarts
  rw [List.append_assoc, List.cons_append] at h
  omega

theorem spell_programPieces (script : String) :
    spell (programPieces script) = programTag.toList ++ ('\n' :: script.toList ++ ['\n'])
      ++ "</script".toList ++ ['>', '\n'] := by
  have hcut : "</script" ++ ">\n" = "</script>\n" := String.ofList_append.symm
  have hend : "</script>\n".toList = "</script".toList ++ ['>', '\n'] := by
    rw [← hcut, String.toList_append]
    rfl
  rw [programPieces, spell_cons, spell_cons, spell_cons, spell_nil, List.append_nil]
  simp only [Piece.text, Piece.content, hend, toList_programBody, List.append_assoc]

theorem startsAnyCase_programTag (rest : List Char) :
    startsAnyCase Mark.programStart.word (programTag.toList ++ rest) := by
  have htag : programTag.toList = Mark.programStart.word ++ _ := String.toList_ofList
  rw [htag, List.append_assoc]
  exact startsAnyCase_self_append rfl

/-- No text from outside opens or ends a script of a document, and the program stands complete
between the only tag that announces it and the next end tag. -/
theorem ofSource_encloses_program (raw : String) (options : Options) :
    let html := (ofSource raw options).html.toList
    let constants := Source.Constants.ofSource raw
    let pieces := buildPieces (Source.classicScript raw) constants options
    let body := '\n' :: (Source.classicScript raw).toList ++ ['\n']
    ¬ "<!--".toList <:+: html ∧
    occurrences "</script".toList html
      = 4 + (if constants.isEmpty then 0 else 1) + options.libraries.required.length
        + options.libraries.optional.length ∧
    (html = spell pieces ∧ ∀ u v, html = u ++ v → startsAnyCase "</script".toList v →
      ∃ before tag after left right, pieces = before ++ .markup tag :: after ∧
        tag.toList = left ++ right ∧ u = spell before ++ left ∧
        startsAnyCase "</script".toList right) ∧
    ∃ before after, html = before ++ programTag.toList ++ body ++ "</script".toList ++ after ∧
      (∀ u v, html = u ++ programTag.toList ++ v → before.length ≤ u.length) ∧
      ∀ u v, body ++ "</script".toList ++ after = u ++ v →
        startsAnyCase "</script".toList v → body.length ≤ u.length := by
  intro html constants pieces body
  have hhtml : html = spell pieces := (spell_buildPieces _ constants options).symm
  have hharmless := Source.isHarmless_classicScript raw
  have hcomment : Counts .comment pieces _ := counts_buildPieces constants options nofun hharmless
  have hends : Counts .scriptEnd pieces _ := counts_buildPieces constants options nofun hharmless
  have hcommentWord : "<!--".toList = Mark.comment.word := String.toList_ofList
  have hendWord : "</script".toList = Mark.scriptEnd.word := String.toList_ofList
  refine ⟨?_, ?_, ⟨hhtml, ?_⟩, ?_⟩
  · have hnone : occurrences Mark.comment.word html = 0 := by
      rw [hhtml, hcomment.quiet.occurrences_spell, hcomment.written_eq]
      rfl
    rw [hcommentWord]
    exact not_infix_of_occurrences_eq_zero rfl (Mark.word_ne_nil _) hnone
  · rw [hendWord, hhtml, hends.quiet.occurrences_spell, hends.written_eq]
    exact Nat.mul_one _
  · intro u v huv hv
    rw [hendWord] at hv ⊢
    exact hends.quiet.occurrence_in_markup (Mark.word_ne_nil _) (hhtml ▸ huv) hv
  · let after := ['>', '\n'] ++ spell (scriptPieces mountScript)
      ++ spell [.markup "</body>\n</html>\n"]
    have hsplit : html = spell (frontPieces constants options) ++ programTag.toList ++ body
        ++ "</script".toList ++ after := by
      rw [hhtml]
      simp only [pieces, buildPieces, spell_append, spell_programPieces, body, after,
        List.append_assoc]
    refine ⟨_, after, hsplit, ?_, ?_⟩
    · intro u v huv
      have hfront := counts_frontPieces .programStart constants options
      have hnone : occurrences Mark.programStart.word (spell (frontPieces constants options)) = 0 :=
        hfront.quiet.occurrences_spell.trans hfront.written_eq
      rw [hsplit] at huv
      simp only [List.append_assoc] at huv
      exact length_le_of_startsAnyCase hfront.quiet.isSealed_spell hnone huv
        (startsAnyCase_programTag v)
    · intro u v huv hv
      rw [hendWord] at hv
      rw [List.append_assoc] at huv
      have hbody : isSealed Mark.scriptEnd.word body ∧ occurrences Mark.scriptEnd.word body = 0 :=
        quiet_programBody nofun hharmless
      exact length_le_of_startsAnyCase hbody.1 hbody.2 huv hv

end LivePreview.Document
