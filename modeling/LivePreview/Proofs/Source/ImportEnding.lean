import LivePreview.Proofs.Source.ImportRole

/-!
The line on which an import declaration ends. It is dropped when it closes a list or holds the whole
declaration, as far as the name of the module holds no quote.
-/

namespace LivePreview.Source

open LivePreview.Text
open LivePreview.Text.Pattern

def quotes : List Char :=
  ['\'', '"']

structure Shows (tokens : List Token) (text : List Char) : Prop where
  only : ∀ c ∈ text, isBlank c ∨ ∃ token ∈ tokens, c ∈ token.text
  each : ∀ token ∈ tokens, ∀ c ∈ token.text, c ∈ text

theorem not_isBlank_of_quote {c : Char} (h : c ∈ quotes) : isBlank c = false := by
  simp only [quotes, List.mem_cons, List.not_mem_nil, or_false] at h
  rcases h with rfl | rfl <;> decide

theorem not_isNameChar_of_quote {c : Char} (h : c ∈ quotes) : isNameChar c = false := by
  simp only [quotes, List.mem_cons, List.not_mem_nil, or_false] at h
  rcases h with rfl | rfl <;> decide

theorem Token.literal_of_quote {token : Token} {c : Char} (h : c ∈ token.text) (hc : c ∈ quotes) :
    ∃ name, token = .literal name := by
  cases token with
  | literal name => exact ⟨name, rfl⟩
  | word name =>
    have hnot := not_isNameChar_of_quote hc
    rw [name.isName c h] at hnot
    cases hnot
  | _ =>
    rw [List.mem_singleton.1 h] at hc
    exact absurd hc (by decide)

theorem ModuleName.quote_mem_quotes (name : ModuleName) : name.quote ∈ quotes := by
  rcases name.isQuote with h | h <;> rw [h] <;> decide

section

variable {declaration : ImportDeclaration} {before after tokens : List Token} {line : LaidLine}
  {row : List Spaced} {text : List Char}

theorem shows_rowText (row : List Spaced) (hspace : ∀ s ∈ row, IsSpace s.gap) :
    Shows (row.map (·.token)) (LaidLine.rowText row) := by
  constructor
  · intro c hc
    cases hblank : isBlank c with
    | true => exact .inl rfl
    | false =>
      obtain ⟨s, hs, hmem⟩ := LaidLine.mem_rowText hspace hblank hc
      exact .inr ⟨s.token, List.mem_map_of_mem hs, hmem⟩
  · intro token htoken c hc
    obtain ⟨s, hs, rfl⟩ := List.mem_map.1 htoken
    exact List.mem_flatMap.2 ⟨s, hs, List.mem_append_right s.gap hc⟩

theorem Shows.append_space {gap : List Char} (h : Shows tokens text) (hgap : IsSpace gap) :
    Shows tokens (text ++ gap) := by
  constructor
  · intro c hc
    rcases List.mem_append.1 hc with hc | hc
    · exact h.only c hc
    · exact .inl (hgap c hc).1
  · exact fun token htoken c hc => List.mem_append_left gap (h.each token htoken c hc)

theorem Shows.not_quote (h : Shows tokens text) (hfree : ∀ name, .literal name ∉ tokens) :
    ∀ c ∈ text, c ∉ quotes := by
  intro c hc hquote
  rcases h.only c hc with hblank | ⟨token, htoken, hmem⟩
  · rw [not_isBlank_of_quote hquote] at hblank
    cases hblank
  · obtain ⟨name, rfl⟩ := Token.literal_of_quote hmem hquote
    exact hfree name htoken

theorem Shows.mem_iff_of_mark {c : Char} (h : Shows tokens text)
    (hfree : ∀ name, .literal name ∉ tokens) (mark : Token) (hmark : mark.isMark)
    (hc : mark.text = [c]) (hblank : isBlank c = false) : c ∈ text ↔ mark ∈ tokens := by
  constructor
  · intro hmem
    rcases h.only c hmem with htrue | ⟨token, htoken, hmem⟩
    · rw [hblank] at htrue
      cases htrue
    · rcases Token.eq_of_mem_text mark hmark hc hmem with rfl | ⟨name, rfl⟩
      · exact htoken
      · exact absurd htoken (hfree name)
  · intro hmem
    exact h.each mark hmem c (by rw [hc]; exact List.mem_cons_self)

theorem exists_front_of_ending (htokens : line.tokens = before ++ declaration.ending) :
    ∃ front rest, line.text = front ++ declaration.source.quote :: rest ∧ Shows before front := by
  obtain ⟨row, last, hrow, rfl, hlast⟩ := List.map_eq_append_iff.1 htokens
  obtain ⟨literal, more, rfl, hliteral, -⟩ := List.map_eq_cons_iff.1 hlast
  have hspace : ∀ s ∈ row ++ literal :: more, IsSpace s.gap := hrow ▸ line.row_space
  have hshows := shows_rowText row fun s hs => hspace s (by simp [hs])
  have htext := LaidLine.text_of_split hrow
  rw [hliteral, Token.text, List.cons_append] at htext
  exact ⟨_, _, htext, hshows.append_space (hspace literal (by simp))⟩

theorem unquoted_of_countP {name : ModuleName} (h : .literal name ∈ line.tokens)
    (hcount : line.text.countP quotes.contains ≤ 2) : name.Unquoted := by
  obtain ⟨front, rest, htext⟩ := LaidLine.text_of_token h
  have hquote : quotes.contains name.quote := by simpa using name.quote_mem_quotes
  have hzero : name.text.countP quotes.contains = 0 := by
    rw [htext, Token.text] at hcount
    simp only [List.countP_append, List.countP_cons, List.countP_nil, hquote, if_true] at hcount
    omega
  rw [List.countP_eq_zero] at hzero
  constructor
  · intro hmem
    exact hzero _ hmem (by decide)
  · intro hmem
    exact hzero _ hmem (by decide)

theorem matches_moduleName {name : ModuleName} (h : name.Unquoted) :
    Matches ModuleSyntax.moduleName (Token.literal name).text := by
  have hquote : Matches ModuleSyntax.quote [name.quote] := by
    rcases name.isQuote with hq | hq
    · rw [hq]
      exact .left (matches_char '\'')
    · rw [hq]
      exact .right (.left (matches_char '"'))
  have htext : Matches (.many (noneOf "'\"")) name.text := by
    refine matches_many_of_all fun c hc => ?_
    have hsingle : c ≠ '\'' := fun heq => h.1 (heq ▸ hc)
    have hdouble : c ≠ '"' := fun heq => h.2 (heq ▸ hc)
    simp [Symbol.accepts, hsingle, hdouble]
  have hmatches : Matches ModuleSyntax.moduleName _ := .seq hquote (.seq htext (.seq hquote .empty))
  simpa [Token.text] using hmatches

theorem matches_ending {row : List Spaced} {tail : List Char} (hspace : ∀ s ∈ row, IsSpace s.gap)
    (htail : IsSpace tail) (hrow : row.map (·.token) = declaration.ending)
    (h : declaration.source.Unquoted) :
    ∃ b m e, LaidLine.rowText row ++ tail = b ++ (m ++ e) ∧ Matches blanks b ∧
      Matches ModuleSyntax.moduleName m ∧ Matches ModuleSyntax.lineEnd e := by
  obtain ⟨literal, more, rfl, hliteral, hmore⟩ := List.map_eq_cons_iff.1 hrow
  have hb := matches_space (hspace literal List.mem_cons_self)
  refine ⟨literal.gap, _, LaidLine.rowText more ++ tail, ?_, hb, matches_moduleName h, ?_⟩
  · rw [LaidLine.rowText_cons, hliteral]
    simp
  · cases hsemicolon : declaration.semicolon with
    | false =>
      rw [hsemicolon] at hmore
      obtain rfl := List.map_eq_nil_iff.1 hmore
      have hmatches : Matches ModuleSyntax.lineEnd _ :=
        .seq (matches_space htail) (.seq (.right .empty) (.seq .none .empty))
      simpa [LaidLine.rowText] using hmatches
    | true =>
      rw [hsemicolon] at hmore
      obtain ⟨mark, noRow, rfl, hmark, hnoRow⟩ := List.map_eq_cons_iff.1 hmore
      obtain rfl := List.map_eq_nil_iff.1 hnoRow
      have hmatches : Matches ModuleSyntax.lineEnd _ :=
        .seq (matches_space (hspace mark (by simp)))
          (.seq (.left (matches_char ';'))
            (.seq (matches_space htail) .empty))
      simpa [LaidLine.rowText, hmark, Token.text] using hmatches

theorem matches_origin {row : List Spaced} {tail : List Char} (hspace : ∀ s ∈ row, IsSpace s.gap)
    (htail : IsSpace tail) (hrow : row.map (·.token) = .word .fromWord :: declaration.ending)
    (h : declaration.source.Unquoted) :
    ∃ b o e, LaidLine.rowText row ++ tail = b ++ (o ++ e) ∧ Matches blanks b ∧
      Matches ModuleSyntax.origin o ∧ Matches ModuleSyntax.lineEnd e := by
  obtain ⟨source, more, rfl, hsource, hmore⟩ := List.map_eq_cons_iff.1 hrow
  obtain ⟨b, m, e, htext, hb, hm, he⟩ :=
    matches_ending (fun s hs => hspace s (List.mem_cons_of_mem _ hs)) htail hmore h
  have hword : Matches (word "from") Identifier.fromWord.chars := matches_word_iff.2 rfl
  refine ⟨source.gap, Identifier.fromWord.chars ++ (b ++ (m ++ [])), e, ?_,
    matches_space (hspace source List.mem_cons_self), .seq hword (.seq hb (.seq hm .empty)), he⟩
  rw [LaidLine.rowText_cons, hsource, List.append_assoc, List.append_assoc, htext]
  simp [Token.text]

theorem text_of_bare (h : line.comment = none) :
    line.text = LaidLine.rowText line.row ++ line.tail := by
  rw [LaidLine.text_eq_front, h]
  exact List.append_nil _

theorem importClosing_of_last (htail : declaration.tail = before ++ line.tokens)
    (hbare : line.comment = none) (hopen : .openBrace ∉ line.tokens)
    (hclose : .closeBrace ∈ line.tokens) (h : declaration.source.Unquoted) :
    ModuleSyntax.importClosing.accepts line.text := by
  obtain ⟨inner, htokens, hlisted⟩ := ImportDeclaration.closing_of_lower htail hopen hclose
  obtain ⟨innerRow, braceRow, hrow, rfl, hbraceRow⟩ := List.map_eq_append_iff.1 htokens
  obtain ⟨brace, originRow, rfl, hbrace, horigin⟩ := List.map_eq_cons_iff.1 hbraceRow
  have hspace : ∀ s ∈ innerRow ++ brace :: originRow, IsSpace s.gap := hrow ▸ line.row_space
  obtain ⟨b, o, e, htext, hb, ho, he⟩ :=
    matches_origin (fun s hs => hspace s (by simp [hs])) line.tail_space horigin h
  have hmarks : "\x7b\x7d'\"".toList.all fun d => !LaidLine.listedChar d := by decide
  have hinner := matches_many_append
    (matches_listed hmarks (fun s hs => hspace s (by simp [hs])) hlisted)
    (matches_noneOf_of_space hmarks (hspace brace (by simp)))
  have hclosed := matches_char '\x7d'
  have hmatches : Matches ModuleSyntax.importClosing _ :=
    .seq hinner (.seq hclosed (.seq hb (.seq ho (.seq he .empty))))
  rw [accepts_iff, text_of_bare hbare, hrow, LaidLine.rowText_append, LaidLine.rowText_cons, hbrace]
  have hsplit : LaidLine.rowText innerRow ++ (brace.gap ++
      (Token.closeBrace.text ++ LaidLine.rowText originRow)) ++ line.tail =
        LaidLine.rowText innerRow ++ brace.gap ++ (['\x7d'] ++ (b ++ (o ++ (e ++ [])))) := by
    rw [List.append_nil, ← htext]
    simp [Token.text]
  rw [hsplit]
  exact hmatches

theorem importClosing_iff_of_last (htail : declaration.tail = before ++ line.tokens)
    (hbare : line.comment = none) (hopen : .openBrace ∉ line.tokens) :
    ModuleSyntax.importClosing.accepts line.text ↔
      .closeBrace ∈ line.tokens ∧ declaration.source.Unquoted := by
  have hrequires : ModuleSyntax.importClosing.requires quotes := by decide
  have hguards : ModuleSyntax.importClosing.guards ['\x7d'] quotes := by decide
  have hmost : ModuleSyntax.importClosing.most quotes = some 2 := by decide
  constructor
  · intro haccepts
    have h := accepts_iff.1 haccepts
    obtain ⟨c, hc, hquote⟩ := exists_mem_of_requires h hrequires
    rcases LaidLine.mem_text_cases (not_isBlank_of_quote hquote) hc with
      ⟨token, htoken, hmem⟩ | ⟨words, hwords, -⟩
    · obtain ⟨name, rfl⟩ := Token.literal_of_quote hmem hquote
      -- The brace that the pattern asks for before the first quote is no part of the name.
      obtain ⟨inner, htokens, hfree⟩ := ImportDeclaration.ending_of_lower htail htoken
      obtain ⟨front, rest, htext, hshows⟩ := exists_front_of_ending htokens
      obtain ⟨d, hd, hbrace⟩ := exists_mem_of_guards h hguards _ _ _ htext
        declaration.source.quote_mem_quotes
      obtain rfl := List.mem_singleton.1 hbrace
      have hclose := (hshows.mem_iff_of_mark hfree .closeBrace rfl rfl (by decide)).1 hd
      rw [htokens]
      refine ⟨List.mem_append_left _ hclose, unquoted_of_countP ?_ (countP_le_of_most h hmost)⟩
      rw [htokens]
      exact List.mem_append_right _ List.mem_cons_self
    · rw [hbare] at hwords
      cases hwords
  · rintro ⟨hclose, hunquoted⟩
    exact importClosing_of_last htail hbare hopen hclose hunquoted

def importedName : Pattern :=
  optional (all [Pattern.name, blanks, optional (char ','), blanks])

def importedNames : Pattern :=
  optional (either ModuleSyntax.bracedNames
    (all [char '*', blanks, word "as", Pattern.gap, Pattern.name]))

theorem braces_of_importedNames {k x y : List Char} {q : Char} (h : Matches importedNames k)
    (hk : k = x ++ q :: y) (hq : q ∈ quotes) : '\x7b' ∈ x ∧ '\x7d' ∉ x := by
  have hguards : importedNames.guards ['\x7b'] quotes := by decide
  obtain ⟨d, hd, hopen⟩ := exists_mem_of_guards h hguards x q y hk hq
  obtain rfl := List.mem_singleton.1 hopen
  refine ⟨hd, ?_⟩
  have hmem : '\x7b' ∈ k := by
    rw [hk]
    exact List.mem_append_left _ hd
  rcases matches_either_iff.1 h with h | h
  · rcases matches_either_iff.1 h with h | h
    · have hsplit : ModuleSyntax.bracedNames =
          all ([char '\x7b', many (noneOf "\x7d")] ++ [char '\x7d']) := rfl
      rw [hsplit] at h
      obtain ⟨v, w, rfl, hv, hw⟩ := matches_all_append h
      have hfront := not_mem_of_avoids hv (by decide : avoids ['\x7d'] _)
      have hlast := not_mem_of_avoids hw (by decide : avoids quotes _)
      rcases append_eq_append_cons_cases hk with ⟨t, rfl, -⟩ | ⟨t, -, rfl⟩
      · exact fun hclose => hfront _ (List.mem_append_left _ hclose) List.mem_cons_self
      · exact absurd hq (hlast q (by simp))
    · exact absurd List.mem_cons_self (not_mem_of_avoids h (by decide : avoids ['\x7b'] _) _ hmem)
  · exact absurd List.mem_cons_self (not_mem_of_avoids h (by decide : avoids ['\x7b'] _) _ hmem)

theorem countP_le_of_importDeclaration {u x y : List Char} {q : Char}
    (h : Matches ModuleSyntax.importDeclaration u) (hu : u = x ++ q :: y) (hq : q ∈ quotes)
    (hx : ∀ c ∈ x, c ∉ quotes) (hbrace : '\x7b' ∈ x → '\x7d' ∈ x) :
    u.countP quotes.contains ≤ 2 := by
  have hsplit : ModuleSyntax.importDeclaration = all ([blanks, word "import", Pattern.gap,
      ModuleSyntax.typeWord, importedName] ++
        [importedNames, blanks, ModuleSyntax.origin, ModuleSyntax.lineEnd]) := rfl
  rw [hsplit] at h
  obtain ⟨v, w, rfl, hv, hw⟩ := matches_all_append h
  obtain ⟨k, z, rfl, hk, hz⟩ := matches_seq_iff.1 hw
  have hlead := not_mem_of_avoids hv (by decide : avoids ['\'', '"', '\x7d'] _)
  have hmost := countP_le_of_most hz (by decide : most quotes _ = some 2)
  rw [← List.append_assoc] at hu ⊢
  -- The first quote stands behind the names: among them it would follow a brace that is still open.
  rcases append_eq_append_cons_cases hu with ⟨t, ht, -⟩ | ⟨t, rfl, rfl⟩
  · rcases append_eq_append_cons_cases ht with ⟨t', rfl, -⟩ | ⟨k', rfl, hk'⟩
    · refine absurd ?_ (hlead q (by simp))
      exact List.mem_append_left ['\x7d'] hq
    · obtain ⟨hopen, hclose⟩ := braces_of_importedNames hk hk' hq
      rcases List.mem_append.1 (hbrace (List.mem_append_right v hopen)) with hmem | hmem
      · exact absurd (by decide) (hlead _ hmem)
      · exact absurd hmem hclose
  · have hzero : (v ++ k).countP quotes.contains = 0 := by
      refine List.countP_eq_zero.2 fun c hc hquote => ?_
      exact hx c (List.mem_append_left t hc) (by simpa using hquote)
    rw [List.countP_append, hzero, Nat.zero_add]
    exact hmost

theorem row_of_oneLine (htokens : line.tokens = declaration.tokens) :
    ∃ gap row, line.row = ⟨gap, .word .importWord⟩ :: row ∧
      row.map (·.token) = declaration.tail := by
  obtain ⟨⟨gap, token⟩, row, hrow, htoken, htail⟩ := List.map_eq_cons_iff.1 htokens
  obtain rfl : token = .word .importWord := htoken
  exact ⟨gap, row, hrow, htail⟩

theorem parted_of_isDeclaration (htokens : line.tokens = declaration.tokens)
    (h : isDeclaration line.text) :
    (declaration.clause.isSome → line.Parted) ∧ declaration.source.Unquoted := by
  obtain ⟨gap, row, hrow, htail⟩ := row_of_oneLine htokens
  have hsplit : line.tokens = (.word .importWord :: declaration.binding) ++ declaration.ending :=
    htokens
  have hfree : ∀ name, .literal name ∉ Token.word .importWord :: declaration.binding := by
    intro name hmem
    exact declaration.literal_notMem_binding name ((List.mem_cons.1 hmem).resolve_left nofun)
  have hmem : .literal declaration.source ∈ line.tokens := by
    rw [hsplit]
    exact List.mem_append_right _ List.mem_cons_self
  obtain ⟨front, rest, htext, hshows⟩ := exists_front_of_ending hsplit
  have hquiet := hshows.not_quote hfree
  have hword : firstWord line.text = Identifier.importWord.chars := LaidLine.firstWord_of_row hrow
  rcases (isDeclaration_iff_of_importWord hword).1 h with h | h
  · refine ⟨fun _ => parted_of_gap hrow (matches_behind_importWord (by decide) h),
      unquoted_of_countP hmem ?_⟩
    refine countP_le_of_importDeclaration h htext declaration.source.quote_mem_quotes hquiet ?_
    intro hopen
    rw [hshows.mem_iff_of_mark hfree .openBrace rfl rfl (by decide), List.mem_cons] at hopen
    rw [hshows.mem_iff_of_mark hfree .closeBrace rfl rfl (by decide)]
    exact List.mem_cons_of_mem _
      (ImportDeclaration.closeBrace_mem_binding (hopen.resolve_left nofun))
  · have hmost : ModuleSyntax.sideEffectImport.most quotes = some 2 := by decide
    refine ⟨fun hclause => ?_, unquoted_of_countP hmem (countP_le_of_most h hmost)⟩
    have hguards : ModuleSyntax.sideEffectImport.guards quotes ['f'] := by decide
    have hfrom : .word .fromWord ∈ declaration.binding := by
      obtain ⟨clause, hclause⟩ := Option.isSome_iff_exists.1 hclause
      simp [ImportDeclaration.binding, hclause]
    have hf : 'f' ∈ front := hshows.each _ (List.mem_cons_of_mem _ hfrom) 'f' (by decide)
    obtain ⟨x, y, rfl⟩ := List.append_of_mem hf
    rw [List.append_assoc, List.cons_append] at htext
    obtain ⟨d, hd, hquote⟩ := exists_mem_of_guards h hguards _ _ _ htext List.mem_cons_self
    exact absurd hquote (hquiet d (List.mem_append_left _ hd))

theorem matches_members {members : Members} (hspace : ∀ s ∈ row, IsSpace s.gap)
    (hseparated : Separated row) (hrow : row.map (·.token) = members.tokens) :
    ∃ s rest k, row = s :: rest ∧ LaidLine.rowText row = s.gap ++ k ∧ Matches importedNames k := by
  cases members with
  | all name free =>
    obtain ⟨star, row, rfl, hstar, hrow⟩ := List.map_eq_cons_iff.1 hrow
    obtain ⟨as, row, rfl, has, hrow⟩ := List.map_eq_cons_iff.1 hrow
    obtain ⟨named, row, rfl, hnamed, hrow⟩ := List.map_eq_cons_iff.1 hrow
    obtain rfl := List.map_eq_nil_iff.1 hrow
    have hgap : named.gap ≠ [] := hseparated.2.1 (by rw [has]; rfl) (by rw [hnamed]; rfl)
    have hmatches : Matches importedNames _ :=
      .left (.right (.seq (matches_char '*')
        (.seq (matches_space (hspace as (by simp))) (.seq (matches_word_iff.2 rfl)
          (.seq (matches_gap_of_space hgap (hspace named (by simp)))
            (.seq (matches_identifier name) .empty))))))
    refine ⟨star, _, _, rfl, ?_, hmatches⟩
    simp [LaidLine.rowText, Token.text, hstar, has, hnamed, Identifier.asWord]
  | listed names =>
    obtain ⟨opened, row, rfl, hopened, hrow⟩ := List.map_eq_cons_iff.1 hrow
    obtain ⟨inner, row, rfl, hinner, hrow⟩ := List.map_eq_append_iff.1 hrow
    obtain ⟨closed, row, rfl, hclosed, hrow⟩ := List.map_eq_cons_iff.1 hrow
    obtain rfl := List.map_eq_nil_iff.1 hrow
    have hlisted : ∀ t ∈ inner.map (·.token), t.isListed := by
      rw [hinner]
      exact fun t ht => names.isListed_of_mem ht
    have hmarks : "\x7d".toList.all fun d => !LaidLine.listedChar d := by decide
    have hnames := matches_many_append
      (matches_listed hmarks (fun s hs => hspace s (by simp [hs])) hlisted)
      (matches_noneOf_of_space hmarks (hspace closed (by simp)))
    have hmatches : Matches importedNames _ :=
      .left (.left (.seq (matches_char '\x7b')
        (.seq hnames (.seq (matches_char '\x7d')
          .empty))))
    refine ⟨opened, _, _, rfl, ?_, hmatches⟩
    simp [LaidLine.rowText, Token.text, hopened, hclosed]

theorem matches_clause {clause : Clause} (hspace : ∀ s ∈ row, IsSpace s.gap)
    (hseparated : Separated row) (hrow : row.map (·.token) = clause.tokens) :
    ∃ s rest a k, row = s :: rest ∧ LaidLine.rowText row = s.gap ++ (a ++ k) ∧
      Matches importedName a ∧ Matches importedNames k := by
  cases clause with
  | default name free =>
    obtain ⟨named, row, rfl, hnamed, hrow⟩ := List.map_eq_cons_iff.1 hrow
    obtain rfl := List.map_eq_nil_iff.1 hrow
    have hmatches : Matches importedName _ :=
      .left (.seq (matches_identifier name) (.seq .none (.seq (.right .empty) (.seq .none .empty))))
    refine ⟨named, _, _, [], rfl, ?_, hmatches, .right .empty⟩
    simp [LaidLine.rowText, Token.text, hnamed]
  | named members =>
    obtain ⟨s, rest, k, rfl, htext, hk⟩ := matches_members hspace hseparated hrow
    exact ⟨s, rest, [], k, rfl, htext, .right .empty, hk⟩
  | both name free members =>
    obtain ⟨named, row, rfl, hnamed, hrow⟩ := List.map_eq_cons_iff.1 hrow
    obtain ⟨comma, row, rfl, hcomma, hrow⟩ := List.map_eq_cons_iff.1 hrow
    obtain ⟨s, rest, k, rfl, htext, hk⟩ := matches_members
      (fun s hs => hspace s (by simp [hs])) (separated_of_cons (separated_of_cons hseparated)) hrow
    have hmatches : Matches importedName _ :=
      .left (.seq (matches_identifier name) (.seq (matches_space (hspace comma (by simp)))
        (.seq (.left (matches_char ','))
          (.seq (matches_space (hspace s (by simp))) .empty))))
    refine ⟨named, _, _, k, rfl, ?_, hmatches, hk⟩
    rw [LaidLine.rowText_cons, LaidLine.rowText_cons, htext, hnamed, hcomma]
    simp [Token.text]

theorem isDeclaration_of_parted (htokens : line.tokens = declaration.tokens)
    (hbare : line.comment = none) (hparted : declaration.clause.isSome → line.Parted)
    (h : declaration.source.Unquoted) : isDeclaration line.text := by
  obtain ⟨gap, row, hrow, htail⟩ := row_of_oneLine htokens
  have hspace : ∀ s ∈ row, IsSpace s.gap := fun s hs =>
    line.row_space s (by rw [hrow]; exact List.mem_cons_of_mem _ hs)
  have hseparated : Separated row := separated_of_cons (hrow ▸ line.separated)
  have hfirst : Matches blanks gap :=
    matches_space (line.row_space ⟨gap, .word .importWord⟩ (by simp [hrow]))
  rw [isDeclaration_iff, text_of_bare hbare, hrow, LaidLine.rowText_cons]
  cases hclause : declaration.clause with
  | none =>
    rw [ImportDeclaration.tail, ImportDeclaration.binding, hclause] at htail
    obtain ⟨b, m, e, htext, hb, hm, he⟩ := matches_ending hspace line.tail_space htail h
    have hmatches : Matches ModuleSyntax.sideEffectImport _ :=
      .seq hfirst (.seq matches_importWord (.seq hb (.seq hm (.seq he .empty))))
    refine ⟨ModuleSyntax.sideEffectImport, by simp [declaring], ?_⟩
    rw [List.append_assoc, List.append_assoc, htext]
    simpa [Token.text] using hmatches
  | some clause =>
    rw [ImportDeclaration.tail, ImportDeclaration.binding, hclause, Option.elim_some,
      List.append_assoc] at htail
    obtain ⟨clauseRow, originRow, rfl, hclauseRow, horigin⟩ := List.map_eq_append_iff.1 htail
    obtain ⟨b, o, e, htext, hb, ho, he⟩ :=
      matches_origin (fun s hs => hspace s (by simp [hs])) line.tail_space horigin h
    obtain ⟨s, rest, a, k, rfl, hclauseText, ha, hk⟩ := matches_clause
      (fun s hs => hspace s (by simp [hs])) (separated_of_append hseparated) hclauseRow
    have hgap : s.gap ≠ [] := hparted (by rw [hclause]; rfl) s (by rw [hrow]; rfl)
    have hmatches : Matches ModuleSyntax.importDeclaration _ :=
      .seq hfirst (.seq matches_importWord (.seq (matches_gap_of_space hgap (hspace s (by simp)))
        (.seq (.right .empty) (.seq ha (.seq hk (.seq hb (.seq ho (.seq he .empty))))))))
    refine ⟨ModuleSyntax.importDeclaration, by simp [declaring], ?_⟩
    rw [LaidLine.rowText_append, List.append_assoc, List.append_assoc, List.append_assoc, htext,
      hclauseText]
    simpa [Token.text] using hmatches

theorem isDeclaration_oneLine_iff (htokens : line.tokens = declaration.tokens)
    (hbare : line.comment = none) : isDeclaration line.text ↔
      (declaration.clause.isSome → line.Parted) ∧ declaration.source.Unquoted :=
  ⟨parted_of_isDeclaration htokens, fun h => isDeclaration_of_parted htokens hbare h.1 h.2⟩

end

end LivePreview.Source
