import LivePreview.Proofs.Source.DefaultName
import LivePreview.Proofs.Source.ExportProse

namespace LivePreview.Source

open LivePreview.Text

open LivePreview.Text.Pattern (Matches matches_seq_iff matches_word_iff matches_symbol_iff)

structure AnonymousDefault where
  indent : List Char
  gap : List Char
  lead : List Char
  value : DefaultValue
  indent_space : IsSpace indent
  gap_space : IsSpace gap
  gap_nonempty : gap ≠ []
  lead_trivia : Trivia lead
  apart : NameEnds (lead ++ value.text)
  value_formed : value.WellFormed

/-- With every root name declared, a value that needs no name may stay without one. -/
def Outline.Fresh (outline : Outline) (value : DefaultValue) : Option RootName → Prop
  | some name => IsFirstFree outline.Declares name
  | none => (∀ name, outline.Declares name) ∧ value.isDeclaration = false

namespace AnonymousDefault

def line (d : AnonymousDefault) (rest : List Char) : List Char :=
  d.indent ++ ("export".toList ++ (d.gap ++ ("default".toList ++ rest)))

def text (d : AnonymousDefault) : List Char :=
  d.line (d.lead ++ d.value.text)

/-- In place of the export the text has its value, declared under the first free root name. -/
def NamedAfresh (outline : Outline) (d : AnonymousDefault) (text : List Char) : Prop :=
  ∃ answer words, text = d.indent ++ words ∧ d.value.Turned answer words ∧
    outline.Fresh d.value answer

/-- The name that goes by what the program mentions and by how the value is laid out. -/
def Given (program : List Char) (d : AnonymousDefault) : Option RootName → Prop
  | some name => IsFirstFree (Mentions program) name ∧ (IsSpace d.lead → d.value.Plain)
  | none => (∀ name, Mentions program name) ∨ (IsSpace d.lead ∧ ¬ d.value.Plain)

end AnonymousDefault

variable {value : DefaultValue} {name : RootName} {answer other : Option RootName}
  {free : Option RootName} {d : AnonymousDefault} {program line later r u v w x words : List Char}
  {ls : List Line} {k : Nat} {c : Char}

theorem not_isBlank_of_nameStart (h : Text.Symbol.nameStart.accepts c) : isBlank c = false := by
  have hall : ∀ n ∈ blankCodes, Text.Symbol.nameStart.accepts (Char.ofNat n) = false := by
    decide +kernel
  by_contra hblank
  have hcode := hall c.toNat (mem_blankCodes (by simpa using hblank))
  rw [Char.ofNat_toNat, h] at hcode
  cases hcode

namespace DefaultValue

theorem exists_text_cons (hvalue : value.WellFormed) :
    ∃ c v, value.text = c :: v ∧ isBlank c = false := by
  cases value with
  | functionValue async gap star tail =>
    cases async with
    | none => exact ⟨'f', _, rfl, by decide⟩
    | some g => exact ⟨'a', _, rfl, by decide⟩
  | classValue gap heir tail => exact ⟨'c', _, rfl, by decide⟩
  | expression text => exact hvalue.begins

theorem Turned.ne_default (hvalue : value.WellFormed) (h : value.Turned answer words)
    (lead : List Char) : "default".toList ++ (lead ++ value.text) ≠ words := by
  rw [← List.append_assoc]
  intro heq
  cases h with
  | declared name hdeclares => exact append_text_ne_append_under hdeclares hvalue _ [] name heq
  | assigned name => exact absurd (List.cons.inj heq).1 (by decide)
  | bare hlead =>
    obtain rfl := List.append_cancel_right heq
    exact hlead.head.elim (by decide) (by decide)

theorem Turned.ne_suffix (hvalue : value.WellFormed) (h : value.Turned answer words)
    (hu : u ≠ []) : value.text ≠ u ++ words := by
  intro heq
  have hlength := congrArg List.length heq
  have hpos := List.length_pos_of_ne_nil hu
  rw [List.length_append] at hlength
  cases h with
  | declared name hdeclares => exact append_text_ne_append_under hdeclares hvalue [] u name heq
  | @assigned name lead =>
    rw [asVariable_append, List.length_append] at hlength
    omega
  | bare =>
    rw [List.length_append] at hlength
    omega

end DefaultValue

namespace AnonymousDefault

theorem Given.unique (h : d.Given program answer) (hother : d.Given program other) :
    answer = other := by
  have hmixed {name : RootName} (hname : d.Given program (some name))
      (hnone : d.Given program none) : False := by
    rcases hnone with hall | ⟨hspace, hplain⟩
    · exact hname.1.not_taken (hall name)
    · exact hplain (hname.2 hspace)
  cases answer with
  | none =>
    cases other with
    | none => rfl
    | some name => exact (hmixed hother h).elim
  | some name =>
    cases other with
    | none => exact (hmixed h hother).elim
    | some other => exact congrArg some (h.1.unique hother.1)

theorem exists_turned (d : AnonymousDefault) (program : List Char) (hr : LinePart r later)
    (hsplit : r ++ later = d.lead ++ d.value.text) :
    ∃ answer, d.Given program answer ∧
      d.value.Turned answer (defaultValue (freeRootName program) (dropBlanks r) ++ later) := by
  obtain ⟨c, v, htext, hc⟩ := d.value.exists_text_cons d.value_formed
  rw [htext] at hsplit
  rcases d.lead_trivia.cut hr hsplit hc with ⟨hspace, x, -, hdrop, hx, hline⟩ |
    ⟨hspace, hdrop, lead, hlead, hvalue⟩
  · have hvalue : c :: x ++ later = d.value.text := by rw [List.cons_append, hx, htext]
    rw [hdrop]
    have hbare : d.value.Turned none (c :: x ++ later) := hvalue ▸ .bare .nil
    cases hfree : freeRootName program with
    | none => exact ⟨none, .inl (freeRootName_eq_none_iff.1 hfree), hbare⟩
    | some name =>
      have hname := freeRootName_eq_some_iff.1 hfree
      by_cases hplain : d.value.Plain
      · exact ⟨some name, ⟨hname, fun _ => hplain⟩,
          DefaultValue.turned_of_plain name d.value_formed hplain hline hvalue⟩
      · have hkept := DefaultValue.declareAs_of_not_plain name d.value_formed hplain hline hvalue
        refine ⟨none, .inr ⟨hspace, hplain⟩, ?_⟩
        rwa [defaultValue, hkept]
  · rw [← htext] at hvalue
    cases hfree : freeRootName program with
    | none =>
      rw [defaultValue, hvalue]
      exact ⟨none, .inl (freeRootName_eq_none_iff.1 hfree), .bare hlead⟩
    | some name =>
      refine ⟨some name, ⟨freeRootName_eq_some_iff.1 hfree, fun h => absurd h hspace⟩, ?_⟩
      rw [defaultValue, declareAs_of_slash name hdrop, ← asVariable_append, hvalue]
      exact .assigned name hlead

theorem exists_line (d : AnonymousDefault) (hline : LinePart line later)
    (hsplit : line ++ later = d.text) :
    ∃ r, LinePart r later ∧ r ++ later = d.lead ++ d.value.text ∧ line = d.line r := by
  obtain ⟨r, rfl, hr, hline⟩ := hline.cut hsplit (newline_notMem_of_isSpace d.indent_space)
  obtain ⟨r, rfl, hr, hline⟩ := hline.cut hr (by decide)
  obtain ⟨r, rfl, hr, hline⟩ := hline.cut hr (newline_notMem_of_isSpace d.gap_space)
  obtain ⟨r, rfl, hr, hline⟩ := hline.cut hr (by decide)
  exact ⟨r, hline, hr, rfl⟩

theorem unexport_line (free : Option RootName) (d : AnonymousDefault) (r : List Char) :
    unexport free (d.line r) =
      d.indent ++ if startsBlank r then defaultValue free (dropBlanks r)
        else "default".toList ++ r := by
  have hindent := LaidLine.isBlank_of_isSpace d.indent_space
  have hexport : afterWord "export" (dropBlanks (d.line r)) = some ("default".toList ++ r) := by
    rw [line, dropBlanks_append_of_all hindent]
    exact afterWord_append_gap "export" ("efault".toList ++ r) d.gap_nonempty
      (LaidLine.isBlank_of_isSpace d.gap_space) (by decide : isBlank 'd' = false)
  have htake : (d.line r).takeWhile isBlank = d.indent := by
    rw [line, List.takeWhile_append_of_pos hindent]
    exact List.append_nil _
  rw [unexport_of_afterWord hexport, htake, exportedText, afterWord_append]
  by_cases hblank : startsBlank r
  · rw [if_pos hblank, if_pos hblank]
  · rw [if_neg hblank, if_neg hblank]

theorem head_firstWord (d : AnonymousDefault) (r : List Char) :
    firstWord (d.line r) = Identifier.exportWord.chars ∧
      afterFirstWord (d.line r) = d.gap ++ ("default".toList ++ r) := by
  have hends : NameEnds (d.gap ++ ("default".toList ++ r)) := by
    have hgap : NameEnds d.gap := by
      intro c rest heq
      exact not_isNameChar_of_isBlank (d.gap_space c (by simp [heq])).1
    exact hgap.append d.gap_nonempty _
  have hindent := LaidLine.isBlank_of_isSpace d.indent_space
  exact ⟨firstWord_append hindent Identifier.exportWord.nonempty Identifier.exportWord.isName hends,
    afterFirstWord_append hindent Identifier.exportWord.nonempty Identifier.exportWord.isName hends⟩

theorem dropBlanks_default {b : List Char} (hb : ∀ c ∈ b, isBlank c) (r : List Char) :
    dropBlanks (b ++ ("default".toList ++ r)) = "default".toList ++ r := by
  rw [dropBlanks_append_of_all hb]
  rfl

theorem exists_name (d : AnonymousDefault) (h : Matches ModuleSyntax.exportedName u)
    (hu : u <+: d.line r) :
    ∃ c rest, dropBlanks r = c :: rest ∧ c ≠ '/' := by
  obtain ⟨hword, hafter⟩ := d.head_firstWord r
  obtain ⟨v, hv, more, hmore⟩ := isPrefix_afterFirstWord hword h hu
  obtain ⟨g, v, rfl, hg, hv⟩ := matches_seq_iff.1 hv
  obtain ⟨n, v, rfl, hn, hv⟩ := matches_seq_iff.1 hv
  obtain ⟨b, v, rfl, hb, hv⟩ := matches_seq_iff.1 hv
  obtain ⟨s, v, rfl, hs, -⟩ := matches_seq_iff.1 hv
  obtain ⟨c, hc, rfl⟩ := matches_symbol_iff.1 hs
  obtain rfl : n = "default".toList := matches_word_iff.1 hn
  have hrest := congrArg dropBlanks (hmore.trans hafter)
  rw [List.append_assoc, List.append_assoc, dropBlanks_default (matches_gap hg).2,
    dropBlanks_default (LaidLine.isBlank_of_isSpace d.gap_space)] at hrest
  obtain rfl := List.append_cancel_left hrest
  refine ⟨c, v ++ more, ?_, ?_⟩
  · rw [List.append_assoc, dropBlanks_append_of_all (matches_gap hb).2]
    exact dropBlanks_cons (not_isBlank_of_nameStart hc)
  · rintro rfl
    exact absurd hc (by decide)

theorem startsBlank_lead (d : AnonymousDefault) (hr : LinePart r later)
    (hsplit : r ++ later = d.lead ++ d.value.text) :
    startsBlank (d.lead ++ d.value.text) = startsBlank r := by
  obtain ⟨c, v, htext, -⟩ := d.value.exists_text_cons d.value_formed
  obtain ⟨e, rest, rfl⟩ := List.exists_cons_of_ne_nil (hr.ne_nil hsplit (by simp [htext]))
  rw [← hsplit]
  rfl

theorem not_namedAfresh_later (outline : Outline) (d : AnonymousDefault) (hr : LinePart r later)
    (hsplit : r ++ later = d.lead ++ d.value.text)
    (hname : ∃ c rest, dropBlanks r = c :: rest ∧ c ≠ '/') : ¬ d.NamedAfresh outline later := by
  rintro ⟨answer, words, rfl, hturned, -⟩
  obtain ⟨c, rest, hdrop, hslash⟩ := hname
  obtain ⟨e, v, htext, he⟩ := d.value.exists_text_cons d.value_formed
  rw [htext] at hsplit
  rcases d.lead_trivia.cut hr hsplit he with ⟨-, x, -, -, hx, -⟩ | ⟨-, hmark, -⟩
  · refine hturned.ne_suffix d.value_formed (u := e :: x ++ d.indent) (by simp) ?_
    rw [htext, ← hx, List.append_assoc]
    rfl
  · exact hslash (hmark c (by rw [hdrop]; rfl))

theorem namedAfresh_unexport_iff (outline : Outline) (d : AnonymousDefault) (program : List Char)
    (hr : LinePart r later) (hsplit : r ++ later = d.lead ++ d.value.text) :
    d.NamedAfresh outline (unexport (freeRootName program) (d.line r) ++ later) ↔
      startsBlank (d.lead ++ d.value.text) ∧
        ∃ answer, d.Given program answer ∧ outline.Fresh d.value answer := by
  rw [unexport_line, d.startsBlank_lead hr hsplit, List.append_assoc]
  by_cases hblank : startsBlank r
  · rw [if_pos hblank]
    obtain ⟨answer, hgiven, hturned⟩ := d.exists_turned program hr hsplit
    constructor
    · rintro ⟨other, words, hwords, hother, hfresh⟩
      obtain rfl := List.append_cancel_left hwords
      obtain rfl := hturned.answer_unique d.value_formed hother
      exact ⟨hblank, answer, hgiven, hfresh⟩
    · rintro ⟨-, other, hother, hfresh⟩
      obtain rfl := hgiven.unique hother
      exact ⟨answer, _, rfl, hturned, hfresh⟩
  · rw [if_neg hblank]
    constructor
    · rintro ⟨answer, words, hwords, hturned, -⟩
      rw [List.append_assoc, hsplit] at hwords
      exact absurd (List.append_cancel_left hwords) (hturned.ne_default d.value_formed d.lead)
    · rintro ⟨h, -⟩
      exact absurd h hblank

end AnonymousDefault

/-- The default export of an anonymous value does not touch what the other lines leave. It becomes a
declaration under the first root name that the program does not declare exactly if its line does not
read as the export of a name, white space follows the word `default`, and the name that goes by what
the program mentions and by the layout of the value is that name. -/
theorem anonymousDefault_namedAfresh_iff (outline : Outline) (d : AnonymousDefault) (k : Nat)
    (hbegins : ((lines outline.text).drop k).flatten = d.text)
    (hoff : ¬ InWholeList (lines outline.text) k ∧ ¬ InBrokenList (lines outline.text) k) :
    let ls := lines outline.text
    let free := freeRootName outline.text
    ∃ text, (withoutModuleSyntax (.ofList outline.text)).toList =
        stripLines free none (ls.take k) ++ text ++ stripLines free none (ls.drop (k + 1)) ∧
      (d.NamedAfresh outline (text ++ (ls.drop (k + 1)).flatten) ↔
        ¬ MatchesAt ModuleSyntax.exportedName ls k ∧ startsBlank (d.lead ++ d.value.text) ∧
          ∃ answer, d.Given outline.text answer ∧ outline.Fresh d.value answer) := by
  intro ls free
  obtain ⟨line, hline, hsplit⟩ : ∃ line, ls[k]? = some line ∧
      line ++ (ls.drop (k + 1)).flatten = d.text := by
    have hk : k < ls.length := by
      by_contra hk
      rw [List.drop_eq_nil_of_le (Nat.le_of_not_lt hk)] at hbegins
      exact absurd hbegins.symm (by simp [AnonymousDefault.text, AnonymousDefault.line])
    refine ⟨ls[k], List.getElem?_eq_getElem hk, ?_⟩
    rw [← hbegins, ← List.flatten_cons, List.getElem_cons_drop hk]
  obtain ⟨r, hr, hrest, rfl⟩ := d.exists_line (linePart_of_cut (cut_lines _) hline) hsplit
  obtain ⟨hword, hafter⟩ := d.head_firstWord r
  rw [withoutModuleSyntax, String.toList_ofList, String.toList_ofList, matchesAt_iff hline]
  by_cases hname : Matches ModuleSyntax.exportedName (Line.body (d.line r))
  · refine ⟨[], ?_, ?_⟩
    · rw [List.append_nil]
      exact stripLines_split_declared free hline (isDeclaration_iff.2 ⟨_, by decide, hname⟩)
    · have hnot := d.not_namedAfresh_later outline hr hrest
        (d.exists_name hname (isPrefix_dropEndWhile isLineEnd _))
      exact ⟨fun h => absurd h hnot, fun h => absurd hname h.1⟩
  · have hmark : (dropBlanks (afterFirstWord (d.line r))).head? ∉ [some '\x7b', some '*'] := by
      have hletter : some 'd' ∉ [some '\x7b', some '*'] := by decide
      rw [hafter, AnonymousDefault.dropBlanks_default (LaidLine.isBlank_of_isSpace d.gap_space)]
      exact hletter
    have hrole := ofBody_of_exportLine hword hmark hname
    refine ⟨_, stripLines_split free hline hrole hoff, ?_⟩
    rw [d.namedAfresh_unexport_iff outline outline.text hr hrest]
    exact ⟨fun h => ⟨hname, h⟩, fun h => h.2⟩

def handlerOutline : Outline :=
  [.declaration ⟨"class", [⟨[' '], "App".toList⟩], " \x7b\x7d\n".toList, by decide⟩,
    .other "export default async function (x) \x7b\n  return x;\n\x7d\n".toList]

def handlerValue : DefaultValue :=
  .functionValue (some [' ']) [' '] none "x) \x7b\n  return x;\n\x7d\n".toList

theorem isSpace_blank : IsSpace [' '] := by
  decide

theorem handlerValue_formed : handlerValue.WellFormed := by
  refine ⟨?_, .of_isSpace isSpace_blank, by simp⟩
  intro g hg
  obtain rfl := Option.some.inj hg
  exact ⟨.of_isSpace isSpace_blank, by decide, by decide⟩

theorem nameEnds_blank (rest : List Char) : NameEnds ([' '] ++ rest) := by
  intro c more heq
  obtain rfl := (List.cons.inj heq).1
  decide

def handlerDefault : AnonymousDefault where
  indent := []
  gap := [' ']
  lead := [' ']
  value := handlerValue
  indent_space := List.forall_mem_nil _
  gap_space := isSpace_blank
  gap_nonempty := List.cons_ne_nil _ _
  lead_trivia := .of_isSpace isSpace_blank
  apart := nameEnds_blank _
  value_formed := handlerValue_formed

theorem handler_namedAfresh :
    let ls := lines handlerOutline.text
    let free := freeRootName handlerOutline.text
    (ls.drop 1).flatten = handlerDefault.text ∧ (¬ InWholeList ls 1 ∧ ¬ InBrokenList ls 1) ∧
      ∃ text, (withoutModuleSyntax (.ofList handlerOutline.text)).toList =
          stripLines free none (ls.take 1) ++ text ++ stripLines free none (ls.drop 2) ∧
        handlerDefault.NamedAfresh handlerOutline (text ++ (ls.drop 2).flatten) := by
  intro ls free
  have hbegins : (ls.drop 1).flatten = handlerDefault.text := by decide +kernel
  have hoff : ¬ InWholeList ls 1 ∧ ¬ InBrokenList ls 1 :=
    not_listed_of_no_opener (by decide +kernel)
  obtain ⟨text, hsplit, hafresh⟩ :=
    anonymousDefault_namedAfresh_iff handlerOutline handlerDefault 1 hbegins hoff
  have hfree : freeRootName handlerOutline.text = some .preview := by decide +kernel
  have hplain : handlerDefault.value.Plain := fun _ => ⟨isSpace_blank, by simp⟩
  have hline : ls[1]? = some "export default async function (x) \x7b\n".toList := by decide +kernel
  have hname : ¬ MatchesAt ModuleSyntax.exportedName ls 1 := by
    rw [matchesAt_iff hline]
    decide +kernel
  refine ⟨hbegins, hoff, text, hsplit, hafresh.2 ⟨hname, by decide, some .preview, ?_, ?_⟩⟩
  · exact ⟨freeRootName_eq_some_iff.1 hfree, fun _ => hplain⟩
  · exact ⟨[.app], [.component, .page], rfl, by decide +kernel, by decide +kernel⟩

def generatorOutline : Outline :=
  [.declaration ⟨"function", [⟨" *".toList, "App".toList⟩], "() \x7b yield 1; \x7d\n".toList,
      by decide⟩,
    .declaration ⟨"const", [⟨[' '], ['a']⟩, ⟨" = 1, ".toList, "Preview".toList⟩], " = 2;\n".toList,
      by decide⟩,
    .other "export default () => a;\n".toList]

theorem generator_declaredTwice :
    generatorOutline.Declares .app ∧ IsFirstFree generatorOutline.Declares .component ∧
      (withoutModuleSyntax (.ofList generatorOutline.text)).toList =
        ((lines generatorOutline.text).take 2).flatten ++ asVariable .app "() => a;\n".toList := by
  refine ⟨by decide +kernel, ?_, ?_⟩
  · exact ⟨[.app, .preview], [.page], rfl, by decide +kernel, by decide +kernel⟩
  · rw [withoutModuleSyntax, String.toList_ofList, String.toList_ofList]
    decide +kernel

end LivePreview.Source
