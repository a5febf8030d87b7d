import LivePreview.Proofs.Source.ImportNames
import LivePreview.Proofs.Source.Passage

namespace LivePreview.Source

open LivePreview.Text
open LivePreview.Text.Pattern

namespace LaidLine

variable {line : LaidLine}

theorem opensList_trimmed_iff : line.trimmed.OpensList ↔ line.OpensList := by
  constructor
  · intro h
    refine ⟨h.parted, h.opened, h.unclosed, fun words hwords c hc hmark => ?_⟩
    have htrimmed : dropEndWhile isLineEnd words ∈ line.trimmed.comment := by
      simp [trimmed, Option.mem_def.1 hwords]
    have hend : isLineEnd c = false := by
      simp only [List.mem_cons, List.not_mem_nil, or_false] at hmark
      rcases hmark with rfl | rfl | rfl <;> decide
    exact h.quiet _ htrimmed c (mem_dropEndWhile hc hend) hmark
  · intro h
    refine ⟨h.parted, h.opened, h.unclosed, fun words hwords c hc => ?_⟩
    obtain ⟨whole, hwhole, rfl⟩ := Option.map_eq_some_iff.1 hwords
    exact h.quiet whole hwhole c (mem_of_mem_dropEndWhile hc)

theorem holdsNames_trimmed_iff : line.trimmed.HoldsNames ↔ line.HoldsNames := by
  constructor
  · exact fun h => ⟨Option.map_eq_none_iff.1 h.bare, h.names⟩
  · exact fun h => ⟨Option.map_eq_none_iff.2 h.bare, h.names⟩

theorem text_ne_nil (h : line.row ≠ []) : line.text ≠ [] := by
  obtain ⟨s, row, hrow⟩ := List.exists_cons_of_ne_nil h
  obtain ⟨c, rest, htext, -⟩ := s.token.text_eq_cons
  rw [text_of_row hrow, htext]
  simp

end LaidLine

section

variable {declaration : ImportDeclaration} {before after : List Token} {line : LaidLine}
  {ending : List Char}

theorem not_opening_of_row (hending : ∀ c ∈ ending, isLineEnd c)
    (htail : declaration.tail = before ++ (line.tokens ++ after)) (kind : BlockKind) :
    LineRole.ofBody (Line.body (line.text ++ ending)) ≠ .opening kind := by
  have htrimmed : declaration.tail = before ++ (line.trimmed.tokens ++ after) := htail
  rw [line.body_text hending]
  exact not_opening_of_later htrimmed kind

theorem ofBody_last (hending : ∀ c ∈ ending, isLineEnd c)
    (htail : declaration.tail = before ++ line.tokens) :
    LineRole.ofBody (Line.body (line.text ++ ending)) = .program := by
  have htrimmed : declaration.tail = before ++ line.trimmed.tokens := htail
  have hsplit : declaration.tail = before ++ (line.tokens ++ []) := by
    rw [List.append_nil]
    exact htail
  rw [ofBody_eq_program_iff]
  refine ⟨?_, not_opening_of_row hending hsplit⟩
  rw [line.body_text hending]
  exact not_isDeclaration_of_later htrimmed

theorem not_bindingNames_last (hending : ∀ c ∈ ending, isLineEnd c)
    (htail : declaration.tail = before ++ line.tokens) (hne : line.row ≠ []) :
    ModuleSyntax.bindingNames.accepts (Line.body (line.text ++ ending)) = false := by
  have htrimmed : declaration.tail = before ++ line.trimmed.tokens := htail
  obtain ⟨c, hmem, hc⟩ := exists_mark_of_last htrimmed hne
  rw [line.body_text hending]
  exact not_bindingNames_of_mark hmem hc

theorem unexport_last_ne_nil (free : Option RootName)
    (htail : declaration.tail = before ++ line.tokens) (hne : line.row ≠ []) (ending : List Char) :
    unexport free (line.text ++ ending) ≠ [] := by
  obtain ⟨c, hmem, hc⟩ := exists_mark_of_last htail hne
  have hmark : isBlank c = false ∧ isNameChar c = false := by
    simp only [List.mem_cons, List.not_mem_nil, or_false] at hc
    rcases hc with rfl | rfl | rfl <;> decide
  exact unexport_ne_nil free (List.mem_append_left ending hmem) hmark.1 hmark.2

theorem ofBody_opening_iff {body : List Char} (hword : firstWord body = Identifier.importWord.chars)
    {kind : BlockKind} : LineRole.ofBody body = .opening kind ↔
      kind = .importing ∧ ModuleSyntax.importOpening.accepts body := by
  constructor
  · intro h
    unfold LineRole.ofBody at h
    split at h
    · cases h
    · split at h
      · rename_i hopening
        cases h
        exact ⟨rfl, hopening⟩
      · split at h
        · rename_i hopening
          have hexport : ModuleSyntax.exportOpening ∈ exporting := by decide
          rw [firstWord_of_exporting hexport (accepts_iff.1 hopening)] at hword
          exact absurd hword (by decide)
        · cases h
  · rintro ⟨rfl, hopening⟩
    have hnot : isDeclaration body = false := by
      rw [← Bool.not_eq_true, isDeclaration_iff_of_importWord hword]
      have havoids : ModuleSyntax.importOpening.avoids quotes := by decide
      intro h
      have hquote : ∃ c ∈ body, c ∈ quotes := by
        rcases h with h | h
        · exact exists_mem_of_requires h (by decide)
        · exact exists_mem_of_requires h (by decide)
      obtain ⟨c, hc, hquote⟩ := hquote
      exact not_mem_of_avoids (accepts_iff.1 hopening) havoids c hc hquote
    rw [LineRole.ofBody, hnot, hopening]
    rfl

theorem closeBrace_of_openBrace (htokens : line.tokens = declaration.tokens)
    (h : .openBrace ∈ line.tokens) : .closeBrace ∈ line.tokens := by
  have hsplit : line.tokens = .word .importWord :: (declaration.binding ++ declaration.ending) :=
    htokens
  rw [hsplit, List.mem_cons, List.mem_append] at h
  have hbinding : .openBrace ∈ declaration.binding :=
    (h.resolve_left nofun).resolve_right (ImportDeclaration.listless_ending declaration).1
  rw [hsplit]
  exact List.mem_cons_of_mem _
    (List.mem_append_left _ (ImportDeclaration.closeBrace_mem_binding hbinding))

theorem leaves_oneLine (free : Option RootName) (hending : ∀ c ∈ ending, isLineEnd c)
    (htokens : line.tokens = declaration.tokens) (hbare : line.comment = none) :
    ∃ text, Leaves free none [line.text ++ ending] text ∧
      (text = [] ↔ (declaration.clause.isSome → line.Parted) ∧ declaration.source.Unquoted) := by
  have htrimmed : line.trimmed.tokens = declaration.tokens := htokens
  have hbare' : line.trimmed.comment = none := by simp [LaidLine.trimmed, hbare]
  have hbody := line.body_text hending
  have hdeclaration := isDeclaration_oneLine_iff htrimmed hbare'
  cases hrole : LineRole.ofBody (Line.body (line.text ++ ending)) with
  | declaration =>
    refine ⟨_, .cons_of_eq (stripLine_none_of_declaration hrole) .nil, ?_⟩
    rw [ofBody_eq_declaration_iff, hbody, hdeclaration] at hrole
    exact ⟨fun _ => hrole, fun _ => rfl⟩
  | opening kind =>
    obtain ⟨gap, row, hrow, -⟩ := row_of_oneLine htrimmed
    rw [hbody, ofBody_opening_iff (LaidLine.firstWord_of_row hrow)] at hrole
    have hopens := opensList_of_importOpening hrow hrole.2
    exact absurd (closeBrace_of_openBrace htrimmed hopens.opened) hopens.unclosed
  | program =>
    have hnot : LineRole.ofBody (Line.body (line.text ++ ending)) ≠ .declaration := by
      simp [hrole]
    have hsource : .literal declaration.source ∈ line.tokens := by
      rw [htokens]
      exact List.mem_cons_of_mem _ (List.mem_append_right _ List.mem_cons_self)
    have hquote : declaration.source.quote ∈ line.text ++ ending :=
      List.mem_append_left ending (LaidLine.mem_text_of_token hsource List.mem_cons_self)
    have hmark := declaration.source.quote_mem_quotes
    have hkept : unexport free (line.text ++ ending) ≠ [] :=
      unexport_ne_nil free hquote (not_isBlank_of_quote hmark) (not_isNameChar_of_quote hmark)
    refine ⟨_, .cons_of_eq (stripLine_none_of_program hrole) .nil, ?_⟩
    rw [Ne, ofBody_eq_declaration_iff, hbody, hdeclaration] at hnot
    exact ⟨fun hnil => absurd (List.append_eq_nil_iff.1 hnil).1 hkept, fun h => absurd h hnot⟩

end

namespace Layout

variable {declaration : ImportDeclaration} {layout : Layout declaration} {ending : List Char}

def lines (layout : Layout declaration) (ending : List Char) : List Line :=
  layout.upper.map (fun line => line.text ++ ['\n']) ++ [layout.last.text ++ ending]

theorem lines_text (layout : Layout declaration) {ending after : List Char}
    (h : ending = ['\n'] ∨ ending = [] ∧ after = []) :
    Text.lines (layout.text ++ (ending ++ after)) = layout.lines ending ++ Text.lines after := by
  have hlast : Text.lines (layout.last.text ++ (ending ++ after)) =
      [layout.last.text ++ ending] ++ Text.lines after := by
    rcases h with rfl | ⟨rfl, rfl⟩
    · exact lines_append_newline layout.last.not_newline_mem_text after
    · rw [List.append_nil, List.append_nil]
      exact lines_of_not_mem layout.last.not_newline_mem_text (LaidLine.text_ne_nil layout.ends)
  rw [text, lines, List.append_assoc, List.append_assoc]
  induction layout.upper with
  | nil => exact hlast
  | cons line upper ih =>
    rw [List.flatMap_cons, List.map_cons, List.append_assoc, List.append_assoc,
      List.singleton_append, lines_append_newline line.not_newline_mem_text, ih]
    rfl

theorem tail_of_upper {first : LaidLine} {between : List LaidLine}
    (hupper : layout.upper = first :: between) :
    ∃ gap row, first.row = ⟨gap, .word .importWord⟩ :: row ∧
      declaration.tail = row.map (·.token) ++
        (between.flatMap (·.tokens) ++ layout.last.tokens) := by
  have hne : first.row ≠ [] := layout.begins first (by rw [hupper]; rfl)
  obtain ⟨⟨gap, token⟩, row, hrow⟩ := List.exists_cons_of_ne_nil hne
  have htokens := layout.tokens_eq
  rw [hupper, List.cons_append, List.flatMap_cons, List.flatMap_append, List.flatMap_singleton,
    LaidLine.tokens, hrow, List.map_cons, List.cons_append] at htokens
  obtain ⟨htoken, htail⟩ := List.cons.inj htokens
  obtain rfl : token = .word .importWord := htoken
  exact ⟨gap, row, hrow, htail.symm⟩

theorem isLineEnd_newline : ∀ c ∈ ['\n'], isLineEnd c :=
  List.all_eq_true.1 (by decide)

theorem bindingNames_body_iff {line : LaidLine} :
    ModuleSyntax.bindingNames.accepts (Line.body (line.text ++ ['\n'])) ↔ line.HoldsNames := by
  rw [line.body_text isLineEnd_newline, bindingNames_iff, LaidLine.holdsNames_trimmed_iff]

theorem importOpening_body_iff {first : LaidLine} {between : List LaidLine}
    (hupper : layout.upper = first :: between) {kind : BlockKind} :
    LineRole.ofBody (Line.body (first.text ++ ['\n'])) = .opening kind ↔
      kind = .importing ∧ first.OpensList := by
  obtain ⟨gap, row, hrow, htail⟩ := layout.tail_of_upper hupper
  have htrimmed : first.trimmed.row = ⟨gap, .word .importWord⟩ :: row := hrow
  rw [first.body_text isLineEnd_newline, ofBody_opening_iff (LaidLine.firstWord_of_row htrimmed),
    ← LaidLine.opensList_trimmed_iff]
  constructor
  · rintro ⟨hkind, h⟩
    exact ⟨hkind, opensList_of_importOpening htrimmed h⟩
  · rintro ⟨hkind, h⟩
    exact ⟨hkind, importOpening_of_opensList htrimmed htail h⟩

theorem importClosing_body_iff {first : LaidLine} {between : List LaidLine}
    (hupper : layout.upper = first :: between) (hopens : first.OpensList)
    (hending : ∀ c ∈ ending, isLineEnd c) :
    ModuleSyntax.importClosing.accepts (Line.body (layout.last.text ++ ending)) ↔
      .closeBrace ∈ layout.last.tokens ∧ declaration.source.Unquoted := by
  obtain ⟨gap, row, hrow, htail⟩ := layout.tail_of_upper hupper
  have hopened : .openBrace ∈ row.map (·.token) := by
    have hmem := hopens.opened
    rw [LaidLine.tokens, hrow, List.map_cons, List.mem_cons] at hmem
    exact hmem.resolve_left (by simp)
  have hopen : .openBrace ∉ layout.last.trimmed.tokens := fun hmem =>
    ImportDeclaration.openBrace_notMem_of_upper htail hopened (List.mem_append_right _ hmem)
  have hbare : layout.last.trimmed.comment = none := by simp [LaidLine.trimmed, layout.bare]
  have hlast : declaration.tail =
      (row.map (·.token) ++ between.flatMap (·.tokens)) ++ layout.last.trimmed.tokens := by
    rw [List.append_assoc]
    exact htail
  rw [layout.last.body_text hending]
  exact importClosing_iff_of_last hlast hbare hopen

theorem listLines_iff_plain {first : LaidLine} {between : List LaidLine}
    (hupper : layout.upper = first :: between) (hending : ∀ c ∈ ending, isLineEnd c) :
    (∃ kind, LineRole.ofBody (Line.body (first.text ++ ['\n'])) = .opening kind ∧
      (∀ l ∈ between.map fun line => line.text ++ ['\n'],
        ModuleSyntax.bindingNames.accepts (Line.body l)) ∧
      kind.closing.accepts (Line.body (layout.last.text ++ ending))) ↔ layout.Plain := by
  rw [Plain, hupper]
  constructor
  · rintro ⟨kind, hfirst, hnames, hclosing⟩
    obtain ⟨rfl, hopens⟩ := (importOpening_body_iff hupper).1 hfirst
    obtain ⟨hclose, hunquoted⟩ := (importClosing_body_iff hupper hopens hending).1 hclosing
    refine ⟨hunquoted, hopens, fun line hline => ?_, hclose⟩
    exact bindingNames_body_iff.1 (hnames _ (List.mem_map_of_mem hline))
  · rintro ⟨hunquoted, hopens, hnames, hclose⟩
    refine ⟨.importing, (importOpening_body_iff hupper).2 ⟨rfl, hopens⟩, ?_,
      (importClosing_body_iff hupper hopens hending).2 ⟨hclose, hunquoted⟩⟩
    intro l hl
    obtain ⟨line, hline, rfl⟩ := List.mem_map.1 hl
    exact bindingNames_body_iff.2 (hnames line hline)

theorem leaves (layout : Layout declaration) (free : Option RootName)
    (hending : ∀ c ∈ ending, isLineEnd c) :
    ∃ text, Leaves free none (layout.lines ending) text ∧ (text = [] ↔ layout.Plain) := by
  cases hupper : layout.upper with
  | nil =>
    have htokens : layout.last.tokens = declaration.tokens := by
      have hall := layout.tokens_eq
      rwa [hupper, List.nil_append, List.flatMap_singleton] at hall
    obtain ⟨text, hleaves, hiff⟩ := leaves_oneLine free hending htokens layout.bare
    refine ⟨text, ?_, ?_⟩
    · rw [lines, hupper]
      exact hleaves
    · rw [hiff, Plain, hupper]
      exact and_comm
  | cons first between =>
    obtain ⟨gap, row, hrow, htail⟩ := layout.tail_of_upper hupper
    have hlast : declaration.tail =
        (row.map (·.token) ++ between.flatMap (·.tokens)) ++ layout.last.tokens := by
      rw [List.append_assoc]
      exact htail
    have hopens : ∀ l ∈ between.map fun line => line.text ++ ['\n'], ∀ kind,
        LineRole.ofBody (Line.body l) ≠ .opening kind := by
      intro l hl
      obtain ⟨line, hline, rfl⟩ := List.mem_map.1 hl
      obtain ⟨earlier, later, rfl⟩ := List.append_of_mem hline
      have hmid : declaration.tail = (row.map (·.token) ++ earlier.flatMap (·.tokens)) ++
          (line.tokens ++ (later.flatMap (·.tokens) ++ layout.last.tokens)) := by
        rw [htail]
        simp
      exact not_opening_of_row isLineEnd_newline hmid
    obtain ⟨text, hleaves, hiff⟩ := leaves_of_first hopens (ofBody_last hending hlast)
      (unexport_last_ne_nil free hlast layout.ends ending)
      (not_bindingNames_last hending hlast layout.ends)
      (by simp : first.text ++ ['\n'] ≠ [])
    refine ⟨text, ?_, ?_⟩
    · rw [lines, hupper]
      exact hleaves
    · rw [hiff, listLines_iff_plain hupper hending]

end Layout

section

variable {before after text : List Char}

theorem isHarmless_append_of_wholeLines (hwhole : WholeLines before) (hbefore : isHarmless before)
    (hafter : isHarmless after) : isHarmless (before ++ after) := by
  rcases hwhole with rfl | ⟨body, rfl⟩
  · exact hafter
  · exact closed_newline (isHarmless_of_append_left hbefore) after hafter

theorem escapeHazards_eq_iff (hharmless : isHarmless (before ++ after)) :
    escapeHazards (before ++ (text ++ after)) = before ++ after ↔ text = [] := by
  constructor
  · intro h
    have hle := length_le_escapeHazards (before ++ (text ++ after))
    rw [h] at hle
    simp only [List.length_append] at hle
    exact List.eq_nil_of_length_eq_zero (by omega)
  · rintro rfl
    exact escapeHazards_of_isHarmless hharmless

/-- Between whole lines without module words, an import declaration is removed exactly when its
layout is plain. -/
theorem classicScript_removes_iff {declaration : ImportDeclaration} (layout : Layout declaration)
    {ending : List Char} (hwhole : WholeLines before) (hbefore : WithoutModuleWords before)
    (hafter : WithoutModuleWords after) (hbeforeHarmless : isHarmless before)
    (hafterHarmless : isHarmless after) (hending : ending = ['\n'] ∨ ending = [] ∧ after = []) :
    classicScript (.ofList (before ++ (layout.text ++ (ending ++ after)))) =
      .ofList (before ++ after) ↔ layout.Plain := by
  have hlineEnds : ∀ c ∈ ending, isLineEnd c := by
    rcases hending with rfl | ⟨rfl, -⟩
    · exact Layout.isLineEnd_newline
    · exact nofun
  have hlines : lines (before ++ (layout.text ++ (ending ++ after))) =
      lines before ++ (layout.lines ending ++ lines after) := by
    rw [lines_append hwhole, layout.lines_text hending]
  generalize hsource : before ++ (layout.text ++ (ending ++ after)) = source at hlines ⊢
  obtain ⟨text, hleaves, hiff⟩ := layout.leaves (freeRootName source) hlineEnds
  have hstrip : stripModuleSyntax source = before ++ (text ++ after) := by
    rw [stripModuleSyntax, hlines]
    exact ((hbefore.leaves _).append (hleaves.append (hafter.leaves _))).stripLines_eq
  have hharmless := isHarmless_append_of_wholeLines hwhole hbeforeHarmless hafterHarmless
  rw [← String.toList_inj, classicScript, defuse, withoutModuleSyntax, String.toList_ofList,
    String.toList_ofList, String.toList_ofList, String.toList_ofList, hstrip,
    escapeHazards_eq_iff hharmless, hiff]

end

def chart : Identifier :=
  ⟨['C', 'h', 'a', 'r', 't'], by decide, List.all_eq_true.1 (by decide)⟩

def charts : ModuleName :=
  ⟨'\'', ['c', 'h', 'a', 'r', 't', 's'], .inl rfl, by decide⟩

def listedChart : ImportDeclaration where
  clause := some (.named (.listed (.cons ⟨chart, none⟩ .nil)))
  source := charts
  semicolon := true

def listedChartLines : Layout listedChart where
  upper := [
    { row := [⟨[], .word .importWord⟩, ⟨[' '], .openBrace⟩], comment := some [' ', 'o', 'n', 'e'] },
    { row := [⟨[' ', ' '], .word chart⟩, ⟨[], .comma⟩] }]
  last :=
    { row := [⟨[], .closeBrace⟩, ⟨[' '], .word .fromWord⟩, ⟨[' '], .literal charts⟩,
        ⟨[], .semicolon⟩] }
  tokens_eq := rfl
  begins := by simp
  ends := nofun
  bare := rfl

def banner : List Char :=
  "// one chart\n".toList

def chartProgram : List Char :=
  "const App = Chart;\n".toList

theorem classicScript_removes_listedChart :
    classicScript (.ofList (banner ++ (listedChartLines.text ++ (['\n'] ++ chartProgram)))) =
      .ofList (banner ++ chartProgram) := by
  have hwhole : WholeLines banner := .inr ⟨"// one chart".toList, by rfl⟩
  have hbanner : WithoutModuleWords banner := by
    unfold WithoutModuleWords
    decide +kernel
  have hprogram : WithoutModuleWords chartProgram := by
    unfold WithoutModuleWords
    decide +kernel
  have hplain : listedChartLines.Plain := by
    refine ⟨by simp [ModuleName.Unquoted, listedChart, charts], ?_, ?_, ?_⟩
    · constructor
      · rintro s hs
        obtain rfl := Option.some.inj hs
        simp
      · simp [LaidLine.tokens]
      · simp [LaidLine.tokens]
      · simp
    · intro line hline
      obtain rfl := List.mem_singleton.1 hline
      exact ⟨rfl, .cons ⟨chart, none⟩ .nil, rfl⟩
    · simp [listedChartLines, LaidLine.tokens]
  have hharmless : isHarmless banner ∧ isHarmless chartProgram := by decide +kernel
  exact (classicScript_removes_iff listedChartLines hwhole hbanner hprogram hharmless.1 hharmless.2
    (.inl rfl)).2 hplain

def defaultChart : ImportDeclaration where
  clause := some (.default chart (by rintro (h | h) <;> cases h))
  source := charts
  semicolon := true

def defaultChartLines : Layout defaultChart where
  upper := [{ row := [⟨[], .word .importWord⟩, ⟨[' '], .word chart⟩] }]
  last :=
    { row := [⟨[' ', ' '], .word .fromWord⟩, ⟨[' '], .literal charts⟩, ⟨[], .semicolon⟩] }
  tokens_eq := rfl
  begins := by simp
  ends := nofun
  bare := rfl

theorem classicScript_keeps_defaultChart :
    WithoutModuleWords chartProgram ∧ isHarmless chartProgram ∧
      classicScript (.ofList (defaultChartLines.text ++ (['\n'] ++ chartProgram))) ≠
        .ofList chartProgram := by
  refine ⟨?_, by decide +kernel, by decide +kernel⟩
  unfold WithoutModuleWords
  decide +kernel

end LivePreview.Source
