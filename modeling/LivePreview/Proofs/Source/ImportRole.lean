import LivePreview.Proofs.Source.ImportLine
import LivePreview.Proofs.Source.ExportLine

/-!
Which part the lines of an import declaration play. Its first line opens a list or not, no later
line opens anything, and its last line closes the list or is kept.
-/

namespace LivePreview.Source

open LivePreview.Text
open LivePreview.Text.Pattern

def exporting : List Pattern :=
  [ModuleSyntax.exportedName, ModuleSyntax.exportedNames, ModuleSyntax.exportAll,
    ModuleSyntax.exportOpening]

def declaring : List Pattern :=
  [ModuleSyntax.importDeclaration, ModuleSyntax.sideEffectImport, ModuleSyntax.exportedName,
    ModuleSyntax.exportedNames, ModuleSyntax.exportAll]

def opening : List Pattern :=
  [ModuleSyntax.importOpening, ModuleSyntax.exportOpening]

def beginsWith (name : Identifier) : Pattern → Bool
  | .seq p (.seq q rest) => p == blanks && q == word (.ofList name.chars) && rest.endsName
  | _ => false

variable {p : Pattern} {u : List Char} {kind : BlockKind} {c : Char}

theorem firstWord_of_beginsWith {name : Identifier} (hp : beginsWith name p) (h : Matches p u) :
    firstWord u = name.chars := by
  unfold beginsWith at hp
  split at hp
  · rename_i b w rest
    simp only [Bool.and_eq_true, beq_iff_eq] at hp
    obtain ⟨⟨rfl, rfl⟩, hrest⟩ := hp
    exact (matches_behind_word name String.toList_ofList hrest h).1
  · cases hp

theorem firstWord_of_exporting (hp : p ∈ exporting) (h : Matches p u) :
    firstWord u = Identifier.exportWord.chars := by
  have hall : exporting.all (beginsWith .exportWord) := by decide
  exact firstWord_of_beginsWith (List.all_eq_true.1 hall p hp) h

theorem isDeclaration_iff : isDeclaration u ↔ ∃ p ∈ declaring, Matches p u := by
  simp [isDeclaration, declaring, accepts_iff, or_assoc]

theorem isDeclaration_iff_of_importWord (hword : firstWord u = Identifier.importWord.chars) :
    isDeclaration u ↔
      Matches ModuleSyntax.importDeclaration u ∨ Matches ModuleSyntax.sideEffectImport u := by
  have hnot : ∀ p ∈ exporting, ¬ Matches p u := by
    intro p hp h
    rw [firstWord_of_exporting hp h] at hword
    exact absurd hword (by decide)
  have hname := hnot ModuleSyntax.exportedName (by decide)
  have hnames := hnot ModuleSyntax.exportedNames (by decide)
  have hall := hnot ModuleSyntax.exportAll (by decide)
  simp [isDeclaration_iff, declaring, hname, hnames, hall]

theorem ofBody_eq_program_iff : LineRole.ofBody u = .program ↔
    isDeclaration u = false ∧ ∀ kind, LineRole.ofBody u ≠ .opening kind := by
  cases hrole : LineRole.ofBody u with
  | declaration => simp [ofBody_eq_declaration_iff.1 hrole]
  | opening kind => simp
  | program =>
    have hne : LineRole.ofBody u ≠ .declaration := by
      rw [hrole]
      nofun
    simp [not_isDeclaration_of_ofBody_ne hne]

theorem matches_of_opening (h : LineRole.ofBody u = .opening kind) :
    ∃ p ∈ opening, Matches p u := by
  unfold LineRole.ofBody at h
  split at h
  · cases h
  · split at h
    · rename_i himport
      exact ⟨_, List.mem_cons_self, accepts_iff.1 himport⟩
    · split at h
      · rename_i hexport
        exact ⟨_, List.mem_cons_of_mem _ List.mem_cons_self, accepts_iff.1 hexport⟩
      · cases h

def wordStart (p : Pattern) : Bool :=
  beginsWith .importWord p || beginsWith .exportWord p

theorem reserved_of_wordStart {name : Identifier} (hp : wordStart p) (h : Matches p u)
    (hname : firstWord u = name.chars) : name.Reserved := by
  rcases Bool.or_eq_true_iff.1 hp with hp | hp
  · exact .inl (hname.symm.trans (firstWord_of_beginsWith hp h))
  · exact .inr (hname.symm.trans (firstWord_of_beginsWith hp h))

theorem firstWord_ne_nil_of_wordStart (hp : wordStart p) (h : Matches p u) : firstWord u ≠ [] := by
  rcases Bool.or_eq_true_iff.1 hp with hp | hp
  · rw [firstWord_of_beginsWith hp h]
    decide
  · rw [firstWord_of_beginsWith hp h]
    decide

namespace LaidLine

variable {line : LaidLine} {row : List Spaced}

def listedChar (c : Char) : Bool :=
  isBlank c || isNameChar c || c == ','

theorem listedChar_of_mem_rowText (hspace : ∀ s ∈ row, IsSpace s.gap)
    (hlisted : ∀ s ∈ row, s.token.isListed) (h : c ∈ rowText row) : listedChar c := by
  obtain ⟨s, hs, hmem⟩ := List.mem_flatMap.1 h
  have hs' := hlisted s hs
  rcases List.mem_append.1 hmem with hgap | htext
  · simp [listedChar, (hspace s hs c hgap).1]
  · cases htoken : s.token with
    | word name =>
      rw [htoken] at htext
      simp [listedChar, name.isName c htext]
    | comma =>
      rw [htoken] at htext
      simp [listedChar, List.mem_singleton.1 htext]
    | _ =>
      rw [htoken] at hs'
      cases hs'

theorem text_eq_front (line : LaidLine) :
    line.text = (rowText line.row ++ line.tail) ++ commentText line.comment := by
  rw [text, List.append_assoc]

theorem mem_front (hc : isBlank c = false) (h : c ∈ rowText line.row ++ line.tail) :
    ∃ token ∈ line.tokens, c ∈ token.text := by
  rcases List.mem_append.1 h with hrow | htail
  · obtain ⟨s, hs, hmem⟩ := mem_rowText line.row_space hc hrow
    exact ⟨s.token, List.mem_map_of_mem hs, hmem⟩
  · rw [(line.tail_space c htail).1] at hc
    cases hc

theorem openBrace_of_opening (hp : p ∈ opening) (h : Matches p line.text) :
    .openBrace ∈ line.tokens := by
  have hrequires : opening.all (requires ['\x7b']) := by decide
  have havoids : opening.all (avoids ['\'', '"']) := by decide
  have hguards : opening.all (guards ['\x7b'] ['/']) := by decide
  have hquotes := not_mem_of_avoids h (List.all_eq_true.1 havoids p hp)
  have hfront : '\x7b' ∈ rowText line.row ++ line.tail := by
    obtain ⟨c, hmem, hc⟩ := exists_mem_of_requires h (List.all_eq_true.1 hrequires p hp)
    obtain rfl := List.mem_singleton.1 hc
    cases hcomment : line.comment with
    | none => simpa [text_eq_front, hcomment, commentText] using hmem
    | some words =>
      have htext : line.text = (rowText line.row ++ line.tail) ++ '/' :: '/' :: words := by
        rw [text_eq_front, hcomment]
        rfl
      obtain ⟨d, hd, hbrace⟩ := exists_mem_of_guards h (List.all_eq_true.1 hguards p hp) _ _ _ htext
        List.mem_cons_self
      exact List.mem_singleton.1 hbrace ▸ hd
  obtain ⟨token, htoken, hmem⟩ := mem_front (by decide) hfront
  rcases Token.eq_of_mem_text .openBrace rfl rfl hmem with rfl | ⟨name, rfl⟩
  · exact htoken
  · have hquote : name.quote ∈ line.text := mem_text_of_token htoken List.mem_cons_self
    refine absurd ?_ (hquotes _ hquote)
    rcases name.isQuote with h | h <;> simp [h]

end LaidLine

section

variable {declaration : ImportDeclaration} {before after : List Token} {line : LaidLine}

theorem row_of_wordStart (htail : declaration.tail = before ++ (line.tokens ++ after))
    (hp : wordStart p) (h : Matches p line.text) :
    ∃ gap name row, line.row = ⟨gap, .word name⟩ :: row ∧ ∃ names rest,
      row.map (·.token) ++ after = names ++ .closeBrace :: rest ∧
        (∀ t ∈ names, t.isListed) ∧ .openBrace ∉ rest := by
  obtain ⟨gap, name, row, hrow, hname⟩ :=
    LaidLine.row_of_firstWord (firstWord_ne_nil_of_wordStart hp h)
  rw [LaidLine.tokens, hrow, List.map_cons, List.cons_append] at htail
  exact ⟨gap, name, row, hrow,
    ImportDeclaration.reserved_in_list htail (reserved_of_wordStart hp h hname)⟩

theorem not_opening_of_later (htail : declaration.tail = before ++ (line.tokens ++ after))
    (kind : BlockKind) : LineRole.ofBody line.text ≠ .opening kind := by
  intro hrole
  have hstart : opening.all wordStart := by decide
  obtain ⟨p, hp, h⟩ := matches_of_opening hrole
  obtain ⟨gap, name, row, hrow, names, rest, htokens, hlisted, hrest⟩ :=
    row_of_wordStart htail (List.all_eq_true.1 hstart p hp) h
  have hopen := LaidLine.openBrace_of_opening hp h
  rw [LaidLine.tokens, hrow, List.map_cons, List.mem_cons] at hopen
  have hmem : Token.openBrace ∈ names ++ .closeBrace :: rest := by
    rw [← htokens]
    exact List.mem_append_left after (hopen.resolve_left nofun)
  rcases List.mem_append.1 hmem with hnames | hmem
  · exact absurd (hlisted _ hnames) (by decide)
  · rcases List.mem_cons.1 hmem with heq | hmem
    · cases heq
    · exact hrest hmem

theorem not_isDeclaration_of_later (htail : declaration.tail = before ++ line.tokens) :
    isDeclaration line.text = false := by
  have hstart : declaring.all wordStart := by decide
  have hguards : declaring.all (guards ['\x7b', '\'', '"'] ['\x7d']) := by decide
  rw [← Bool.not_eq_true, isDeclaration_iff]
  rintro ⟨p, hp, h⟩
  rw [← List.append_nil line.tokens] at htail
  obtain ⟨gap, name, row, hrow, names, rest, htokens, hlisted, -⟩ :=
    row_of_wordStart htail (List.all_eq_true.1 hstart p hp) h
  rw [List.append_nil] at htokens
  obtain ⟨listed, closing, rfl, rfl, hclosing⟩ := List.map_eq_append_iff.1 htokens
  obtain ⟨brace, closing, rfl, hbrace, -⟩ := List.map_eq_cons_iff.1 hclosing
  have hspace : ∀ s ∈ listed ++ brace :: closing, IsSpace s.gap := fun s hs =>
    line.row_space s (by rw [hrow]; exact List.mem_cons_of_mem _ hs)
  have htext : line.text = (gap ++ name.chars ++ LaidLine.rowText listed ++ brace.gap) ++ '\x7d' ::
      (LaidLine.rowText closing ++ (line.tail ++ LaidLine.commentText line.comment)) := by
    rw [LaidLine.text_of_row hrow, LaidLine.rowText_append, LaidLine.rowText_cons, hbrace]
    simp [Token.text]
  obtain ⟨d, hd, hmem⟩ := exists_mem_of_guards h (List.all_eq_true.1 hguards p hp) _ _ _ htext
    List.mem_cons_self
  have hchar : LaidLine.listedChar d := by
    simp only [List.mem_append] at hd
    rcases hd with ((hd | hd) | hd) | hd
    · have hblank := (line.row_space ⟨gap, .word name⟩ (by simp [hrow]) d hd).1
      simp [LaidLine.listedChar, hblank]
    · simp [LaidLine.listedChar, name.isName d hd]
    · exact LaidLine.listedChar_of_mem_rowText
        (fun s hs => hspace s (List.mem_append_left _ hs))
        (fun s hs => hlisted _ (List.mem_map_of_mem hs)) hd
    · have hblank := (hspace brace (by simp) d hd).1
      simp [LaidLine.listedChar, hblank]
  revert hchar
  simp only [List.mem_cons, List.not_mem_nil, or_false] at hmem
  rcases hmem with rfl | rfl | rfl <;> decide

theorem exists_mark_of_last (htail : declaration.tail = before ++ line.tokens)
    (hne : line.row ≠ []) : ∃ c ∈ line.text, c ∈ ['\'', '"', ';'] := by
  have hlast : ∃ token ∈ line.tokens, token ∈ declaration.ending := by
    have htokens : line.tokens ≠ [] := by simpa [LaidLine.tokens] using hne
    obtain ⟨front, token, hfront⟩ := List.eq_nil_or_concat line.tokens |>.resolve_left htokens
    obtain ⟨inner, final, hending⟩ := List.eq_nil_or_concat declaration.ending |>.resolve_left nofun
    rw [List.concat_eq_append] at hfront hending
    rw [ImportDeclaration.tail, hfront, hending, ← List.append_assoc, ← List.append_assoc] at htail
    obtain ⟨-, hsame⟩ := List.append_inj' htail rfl
    obtain rfl := (List.cons.inj hsame).1
    exact ⟨final, by simp [hfront], by simp [hending]⟩
  obtain ⟨token, htoken, hmem⟩ := hlast
  have hcases : token = .literal declaration.source ∨ token = .semicolon := by
    unfold ImportDeclaration.ending at hmem
    split at hmem <;> simp at hmem
    · exact hmem
    · exact .inl hmem
  rcases hcases with rfl | rfl
  · refine ⟨_, LaidLine.mem_text_of_token htoken List.mem_cons_self, ?_⟩
    rcases declaration.source.isQuote with h | h <;> simp [h]
  · exact ⟨';', LaidLine.mem_text_of_token htoken List.mem_cons_self, by decide⟩

theorem not_bindingNames_of_mark {c : Char} (hmem : c ∈ u) (hc : c ∈ ['\'', '"', ';']) :
    ModuleSyntax.bindingNames.accepts u = false := by
  rw [← Bool.not_eq_true, accepts_iff]
  intro h
  exact not_mem_of_avoids h (by decide : ModuleSyntax.bindingNames.avoids ['\'', '"', ';']) c hmem hc

theorem matches_behind_importWord {q : Pattern} (hq : q.endsName)
    (h : Matches (.seq blanks (.seq (word "import") q)) u) : Matches q (afterFirstWord u) :=
  (matches_behind_word .importWord rfl hq h).2

theorem parted_of_gap {name : Identifier} {q : Pattern} {first : List Char} {row : List Spaced}
    (hrow : line.row = ⟨first, .word name⟩ :: row)
    (h : Matches (.seq Pattern.gap q) (afterFirstWord line.text)) : line.Parted := by
  intro s hs hgap
  rw [hrow] at hs
  cases row with
  | nil => cases hs
  | cons r row =>
    obtain rfl : r = s := Option.some.inj hs
    obtain ⟨g, v, heq, hg, -⟩ := matches_seq_iff.1 h
    obtain ⟨hne, hblank⟩ := matches_gap hg
    obtain ⟨c, g, rfl⟩ := List.exists_cons_of_ne_nil hne
    obtain ⟨d, rest, htext, hd, -⟩ := r.token.text_eq_cons
    rw [LaidLine.afterFirstWord_of_row hrow, LaidLine.rowText_cons, hgap, htext] at heq
    obtain ⟨rfl, -⟩ := List.cons.inj heq
    rw [hblank d List.mem_cons_self] at hd
    cases hd

theorem opensList_of_importOpening {first : List Char} {row : List Spaced}
    (hrow : line.row = ⟨first, .word .importWord⟩ :: row)
    (h : ModuleSyntax.importOpening.accepts line.text) : line.OpensList := by
  rw [accepts_iff] at h
  have havoids : ModuleSyntax.importOpening.avoids ['\x7d', '\'', '"'] := by decide
  have hquiet := not_mem_of_avoids h havoids
  refine ⟨parted_of_gap hrow (matches_behind_importWord (by decide) h),
    LaidLine.openBrace_of_opening List.mem_cons_self h, ?_, ?_⟩
  · intro hclose
    have hmem : '\x7d' ∈ line.text := LaidLine.mem_text_of_token hclose List.mem_cons_self
    exact hquiet _ hmem List.mem_cons_self
  · intro words hwords c hc
    exact hquiet c (LaidLine.mem_text_of_comment hwords (.inr hc))

theorem accepts_of_listedChar {marks : List Char} {c : Char} (h : LaidLine.listedChar c)
    (hmarks : marks.all fun d => !LaidLine.listedChar d) : (Symbol.noneOf marks).accepts c := by
  simp only [Symbol.accepts, Bool.not_eq_true', List.contains_eq_mem, decide_eq_false_iff_not]
  intro hmem
  have hnot := List.all_eq_true.1 hmarks c hmem
  simp [h] at hnot

theorem matches_space {u : List Char} (h : IsSpace u) : Matches blanks u :=
  matches_many_of_all fun c hc => (h c hc).1

theorem matches_gap_of_space {u : List Char} (hne : u ≠ []) (h : IsSpace u) :
    Matches Pattern.gap u :=
  matches_some_of_all hne fun c hc => (h c hc).1

theorem matches_identifier (name : Identifier) : Matches Pattern.name name.chars :=
  matches_some_of_all name.nonempty name.isName

theorem matches_importWord : Matches (word "import") Identifier.importWord.chars :=
  matches_word_iff.2 rfl

theorem matches_listed {row : List Spaced} {marks : String}
    (hmarks : marks.toList.all fun d => !LaidLine.listedChar d)
    (hspace : ∀ s ∈ row, IsSpace s.gap) (hlisted : ∀ t ∈ row.map (·.token), t.isListed) :
    Matches (.many (noneOf marks)) (LaidLine.rowText row) := by
  refine matches_many_of_all fun c hc => accepts_of_listedChar ?_ hmarks
  exact LaidLine.listedChar_of_mem_rowText hspace
    (fun s hs => hlisted s.token (List.mem_map_of_mem hs)) hc

theorem matches_noneOf_of_space {gap : List Char} {marks : String}
    (hmarks : marks.toList.all fun d => !LaidLine.listedChar d) (h : IsSpace gap) :
    Matches (.many (noneOf marks)) gap := by
  refine matches_many_of_all fun c hc => accepts_of_listedChar ?_ hmarks
  simp [LaidLine.listedChar, (h c hc).1]

theorem matches_many_append {p : Pattern} {u v : List Char} (hu : Matches (.many p) u)
    (hv : Matches (.many p) v) : Matches (.many p) (u ++ v) := by
  generalize hq : Pattern.many p = q at hu
  induction hu with
  | none =>
    cases hq
    exact hv
  | more hfirst _ _ ih =>
    cases hq
    rw [List.append_assoc]
    exact .more hfirst (ih rfl)
  | _ => cases hq

theorem matches_quiet_end {words? : Option (List Char)} {tail : List Char} (htail : IsSpace tail)
    (hquiet : ∀ words ∈ words?, ∀ c ∈ words, c ∉ ['\x7d', '\'', '"']) :
    Matches (.many (noneOf "\x7d'\"")) (tail ++ LaidLine.commentText words?) := by
  refine matches_many_of_all fun c hc => ?_
  rcases List.mem_append.1 hc with hc | hc
  · exact accepts_of_listedChar (by simp [LaidLine.listedChar, (htail c hc).1]) (by decide)
  · cases words? with
    | none => cases hc
    | some words =>
      simp only [LaidLine.commentText, Option.elim_some, List.mem_cons, or_self_left] at hc
      rcases hc with rfl | hc
      · decide
      · simpa [Symbol.accepts] using hquiet words rfl c hc

theorem importOpening_of_opensList {first : List Char} {row : List Spaced}
    (hrow : line.row = ⟨first, .word .importWord⟩ :: row)
    (htail : declaration.tail = row.map (·.token) ++ after) (h : line.OpensList) :
    ModuleSyntax.importOpening.accepts line.text := by
  have htokens : line.tokens = .word .importWord :: row.map (·.token) := by
    rw [LaidLine.tokens, hrow]
    rfl
  have hopen : .openBrace ∈ row.map (·.token) := by
    have hmem := h.opened
    rw [htokens, List.mem_cons] at hmem
    exact hmem.resolve_left nofun
  have hclose : .closeBrace ∉ row.map (·.token) := fun hmem =>
    h.unclosed (by rw [htokens]; exact List.mem_cons_of_mem _ hmem)
  obtain ⟨lead, inner, hlead, hsplit, hlisted⟩ :=
    ImportDeclaration.opening_of_upper htail hopen hclose
  obtain ⟨leadRow, braceRow, rfl, hleadRow, hbraceRow⟩ := List.map_eq_append_iff.1 hsplit
  obtain ⟨brace, innerRow, rfl, hbrace, rfl⟩ := List.map_eq_cons_iff.1 hbraceRow
  have hspace : ∀ s ∈ leadRow ++ brace :: innerRow, IsSpace s.gap := fun s hs =>
    line.row_space s (by rw [hrow]; exact List.mem_cons_of_mem _ hs)
  have hfirst : Matches blanks first :=
    matches_space (line.row_space ⟨first, .word .importWord⟩ (by simp [hrow]))
  have hopened := matches_char '\x7b'
  have hrest := matches_many_append
    (matches_listed (by decide) (fun s hs => hspace s (by simp [hs])) hlisted)
    (matches_quiet_end line.tail_space h.quiet)
  rw [accepts_iff, LaidLine.text_of_row hrow, LaidLine.rowText_append, LaidLine.rowText_cons, hbrace]
  cases hlead with
  | none =>
    obtain rfl := List.map_eq_nil_iff.1 hleadRow
    have hgap := matches_gap_of_space (h.parted brace (by rw [hrow]; rfl)) (hspace brace (by simp))
    have hmatches : Matches ModuleSyntax.importOpening _ :=
      .seq hfirst (.seq matches_importWord (.seq hgap (.seq (.right .empty) (.seq (.right .empty)
        (.seq hopened (.seq hrest .empty))))))
    simpa [LaidLine.rowText, Token.text] using hmatches
  | @default name _ =>
    obtain ⟨named, commaRow, rfl, hnamed, hcommaRow⟩ := List.map_eq_cons_iff.1 hleadRow
    obtain ⟨comma, noRow, rfl, hcomma, hnoRow⟩ := List.map_eq_cons_iff.1 hcommaRow
    obtain rfl := List.map_eq_nil_iff.1 hnoRow
    have hgap := matches_gap_of_space (h.parted named (by rw [hrow]; rfl)) (hspace named (by simp))
    have hlead : Matches (all [Pattern.name, blanks, char ',', blanks]) _ :=
      .seq (matches_identifier name) (.seq (matches_space (hspace comma (by simp)))
        (.seq (matches_char ',')
          (.seq (matches_space (hspace brace (by simp))) .empty)))
    have hmatches : Matches ModuleSyntax.importOpening _ :=
      .seq hfirst (.seq matches_importWord (.seq hgap (.seq (.right .empty) (.seq (.left hlead)
        (.seq hopened (.seq hrest .empty))))))
    simpa [LaidLine.rowText, Token.text, hnamed, hcomma] using hmatches

end

end LivePreview.Source
