import LivePreview.Proofs.Source.ImportEnding

/-!
The lines inside a list of an import declaration. A line is held as one of the list exactly when it
bears no comment and its tokens are names, each but the last with the comma behind it.
-/

namespace LivePreview.Source

open LivePreview.Text
open LivePreview.Text.Pattern

theorem nameEnds_append {b w : List Char} (hb : ∀ c ∈ b, isBlank c) (hw : b = [] → NameEnds w) :
    NameEnds (b ++ w) := by
  cases b with
  | nil => exact hw rfl
  | cons c b =>
    intro d rest heq
    obtain ⟨rfl, -⟩ := List.cons.inj heq
    exact not_isNameChar_of_isBlank (hb c List.mem_cons_self)

theorem nameEnds_comma (w : List Char) : NameEnds (',' :: w) := by
  intro c rest heq
  obtain ⟨rfl, -⟩ := List.cons.inj heq
  decide

theorem Identifier.eq_of_chars {name other : Identifier} (h : name.chars = other.chars) :
    name = other := by
  obtain ⟨chars, _, _⟩ := name
  obtain ⟨otherChars, _, _⟩ := other
  obtain rfl : chars = otherChars := h
  rfl

namespace LaidLine

variable {line : LaidLine} {s : Spaced} {row : List Spaced} {b n w : List Char}

def next (line : LaidLine) : LaidLine where
  row := line.row.tail
  tail := line.tail
  comment := line.comment
  row_space s hs := line.row_space s (List.mem_of_mem_tail hs)
  tail_space := line.tail_space
  comment_line := line.comment_line
  separated := by
    cases hrow : line.row with
    | nil => trivial
    | cons s row => exact separated_of_cons (hrow ▸ line.separated)

theorem tokens_next (hrow : line.row = s :: row) : line.tokens = s.token :: line.next.tokens := by
  simp [tokens, next, hrow]

theorem text_next (hrow : line.row = s :: row) :
    line.next.text = rowText row ++ (line.tail ++ commentText line.comment) := by
  simp [text, next, hrow]

theorem next_of_word (htext : line.text = b ++ (n ++ w)) (hb : ∀ c ∈ b, isBlank c) (hne : n ≠ [])
    (hn : ∀ c ∈ n, isNameChar c) (hw : NameEnds w) :
    ∃ name, line.tokens = .word name :: line.next.tokens ∧ name.chars = n ∧ line.next.text = w := by
  have hfirst : firstWord line.text = n := by rw [htext, firstWord_append hb hne hn hw]
  obtain ⟨gap, name, row, hrow, hname⟩ := row_of_firstWord (by rw [hfirst]; exact hne)
  refine ⟨name, tokens_next hrow, hname.symm.trans hfirst, ?_⟩
  rw [text_next hrow, ← afterFirstWord_of_row hrow, htext, afterFirstWord_append hb hne hn hw]

theorem dropBlanks_text (hrow : line.row = s :: row) :
    dropBlanks line.text = s.token.text ++ line.next.text := by
  obtain ⟨c, rest, htext, hc, -⟩ := s.token.text_eq_cons
  have hgap : IsSpace s.gap := line.row_space s (by simp [hrow])
  rw [text_of_row hrow, dropBlanks_append_of_all (isBlank_of_isSpace hgap), text_next hrow, htext]
  simp [dropBlanks, hc]

theorem tokens_of_blank (h : ∀ c ∈ line.text, isBlank c) : line.tokens = [] := by
  cases hrow : line.row with
  | nil => simp [tokens, hrow]
  | cons s row =>
    have hdrop := dropBlanks_text hrow
    obtain ⟨c, rest, htext, -⟩ := s.token.text_eq_cons
    rw [dropBlanks_of_all h, htext] at hdrop
    cases hdrop

theorem next_of_comma (htext : line.text = b ++ ',' :: w) (hb : ∀ c ∈ b, isBlank c) :
    line.tokens = .comma :: line.next.tokens ∧ line.next.text = w := by
  have hcomma : dropBlanks line.text = ',' :: w := by
    rw [htext, dropBlanks_append_of_all hb]
    rfl
  cases hrow : line.row with
  | nil =>
    have hblank : ∀ c ∈ line.tail, isBlank c := isBlank_of_isSpace line.tail_space
    rw [text, hrow, rowText, List.flatMap_nil, List.nil_append,
      dropBlanks_append_of_all hblank] at hcomma
    cases hwords : line.comment with
    | none =>
      rw [hwords] at hcomma
      cases hcomma
    | some words =>
      rw [hwords] at hcomma
      exact absurd (List.cons.inj hcomma).1 (by decide)
  | cons s row =>
    rw [dropBlanks_text hrow] at hcomma
    have htoken : s.token = .comma := by
      obtain ⟨c, rest, hs, -, hname⟩ := s.token.text_eq_cons
      rw [hs] at hcomma
      obtain ⟨rfl, -⟩ := List.cons.inj hcomma
      have hmem : ',' ∈ s.token.text := by
        rw [hs]
        exact List.mem_cons_self
      rcases Token.eq_of_mem_text .comma rfl rfl hmem with htoken | ⟨name, htoken⟩
      · exact htoken
      · rw [htoken] at hs
        have hquote := name.quote_mem_quotes
        rw [(List.cons.inj hs).1] at hquote
        exact absurd hquote (by decide)
    rw [tokens_next hrow, htoken]
    rw [htoken] at hcomma
    exact ⟨rfl, (List.cons.inj hcomma).2⟩

theorem exists_specifier {r : List Char} (htext : line.text = b ++ (r ++ w))
    (hb : ∀ c ∈ b, isBlank c) (hr : Matches ModuleSyntax.rename r) (hw : NameEnds w) :
    ∃ specifier : Specifier, ∃ later : LaidLine, ∃ gap : List Char,
      line.tokens = specifier.tokens ++ later.tokens ∧ later.text = gap ++ w ∧
        ∀ c ∈ gap, isBlank c := by
  obtain ⟨n, r, rfl, hn, hr⟩ := matches_seq_iff.1 hr
  obtain ⟨o, r, rfl, ho, hr⟩ := matches_seq_iff.1 hr
  obtain ⟨t, e, rfl, ht, he⟩ := matches_seq_iff.1 hr
  cases he
  obtain ⟨hne, hname⟩ := matches_name hn
  have hblank := matches_blanks ht
  have hends : NameEnds (t ++ w) := nameEnds_append hblank fun _ => hw
  rcases matches_either_iff.1 ho with ho | ho
  · obtain ⟨g, o, rfl, hg, ho⟩ := matches_seq_iff.1 ho
    obtain ⟨as, o, rfl, has, ho⟩ := matches_seq_iff.1 ho
    obtain ⟨g', o, rfl, hg', ho⟩ := matches_seq_iff.1 ho
    obtain ⟨m, e, rfl, hm, he⟩ := matches_seq_iff.1 ho
    cases he
    obtain rfl := matches_word_iff.1 has
    obtain ⟨hgne, hgblank⟩ := matches_gap hg
    obtain ⟨hgne', hgblank'⟩ := matches_gap hg'
    obtain ⟨hmne, hmname⟩ := matches_name hm
    simp only [List.append_assoc, List.nil_append] at htext
    obtain ⟨name, htokens, -, hnext⟩ := next_of_word htext hb hne hname
      (nameEnds_append hgblank fun hnil => absurd hnil hgne)
    obtain ⟨asName, hasTokens, hasName, hasNext⟩ := next_of_word hnext hgblank (by decide)
      (List.all_eq_true.1 (by decide))
      (nameEnds_append hgblank' fun hnil => absurd hnil hgne')
    obtain ⟨other, hotherTokens, -, hotherNext⟩ := next_of_word hasNext hgblank' hmne hmname hends
    obtain rfl : asName = .asWord := Identifier.eq_of_chars hasName
    refine ⟨⟨name, Option.some other⟩, line.next.next.next, t, ?_, hotherNext, hblank⟩
    rw [htokens, hasTokens, hotherTokens]
    rfl
  · cases ho
    simp only [List.append_assoc, List.nil_append] at htext
    obtain ⟨name, htokens, -, hnext⟩ := next_of_word htext hb hne hname hends
    refine ⟨⟨name, none⟩, line.next, t, ?_, hnext, hblank⟩
    rw [htokens]
    rfl

theorem exists_last_specifier (htext : line.text = b ++ w) (hb : ∀ c ∈ b, isBlank c)
    (hw : Matches (optional ModuleSyntax.rename) w) :
    ∃ names : NameList, line.tokens = names.tokens := by
  rcases matches_either_iff.1 hw with hw | hw
  · rw [← List.append_nil w] at htext
    obtain ⟨specifier, later, gap, htokens, hlater, hgap⟩ :=
      exists_specifier htext hb hw nameEnds_nil
    rw [List.append_nil] at hlater
    rw [← hlater] at hgap
    refine ⟨.last specifier, ?_⟩
    rw [htokens, tokens_of_blank hgap, List.append_nil]
    rfl
  · cases hw
    rw [List.append_nil] at htext
    rw [← htext] at hb
    exact ⟨.nil, tokens_of_blank hb⟩

theorem exists_names {u : List Char}
    (hu : Matches (many (all [ModuleSyntax.rename, char ',', blanks])) u)
    (htext : line.text = b ++ (u ++ w)) (hb : ∀ c ∈ b, isBlank c)
    (hw : Matches (optional ModuleSyntax.rename) w) :
    ∃ names : NameList, line.tokens = names.tokens := by
  generalize hp : many (all [ModuleSyntax.rename, char ',', blanks]) = p at hu
  -- One specifier and its comma are read at a time; what is left is a line again.
  induction hu generalizing line b with
  | none => exact exists_last_specifier htext hb hw
  | @more p x v hx _ _ ih =>
    cases hp
    obtain ⟨r, x, rfl, hr, hx⟩ := matches_seq_iff.1 hx
    obtain ⟨c, x, rfl, hc, hx⟩ := matches_seq_iff.1 hx
    obtain ⟨t, e, rfl, ht, he⟩ := matches_seq_iff.1 hx
    cases he
    obtain ⟨d, hd, rfl⟩ := matches_symbol_iff.1 hc
    obtain rfl : d = ',' := by simpa [Symbol.accepts] using hd
    simp only [List.append_assoc, List.append_nil, List.singleton_append] at htext
    obtain ⟨specifier, later, gap, htokens, hlater, hgap⟩ :=
      exists_specifier htext hb hr (nameEnds_comma _)
    obtain ⟨hcomma, hnext⟩ := next_of_comma hlater hgap
    obtain ⟨names, hnames⟩ := ih hnext (matches_blanks ht) rfl
    refine ⟨.cons specifier names, ?_⟩
    rw [htokens, hcomma, hnames]
    rfl
  | _ => cases hp

theorem holdsNames_of_bindingNames (h : ModuleSyntax.bindingNames.accepts line.text) :
    line.HoldsNames := by
  rw [accepts_iff] at h
  constructor
  · cases hwords : line.comment with
    | none => rfl
    | some words =>
      have havoids : ModuleSyntax.bindingNames.avoids ['/'] := by decide
      have hslash : '/' ∈ line.text := mem_text_of_comment hwords (.inl rfl)
      exact absurd List.mem_cons_self (not_mem_of_avoids h havoids '/' hslash)
  · obtain ⟨b, v, htext, hb, h⟩ := matches_seq_iff.1 h
    obtain ⟨u, v, rfl, hu, h⟩ := matches_seq_iff.1 h
    obtain ⟨w, e, rfl, hw, he⟩ := matches_seq_iff.1 h
    cases he
    rw [List.append_nil] at htext
    exact exists_names hu htext (matches_blanks hb) hw

end LaidLine

section

variable {row : List Spaced} {tail : List Char}

theorem matches_rename {specifier : Specifier} (hspace : ∀ s ∈ row, IsSpace s.gap)
    (hseparated : Separated row) (htail : IsSpace tail)
    (hrow : row.map (·.token) = specifier.tokens) :
    ∃ b r, LaidLine.rowText row ++ tail = b ++ r ∧ Matches blanks b ∧
      Matches ModuleSyntax.rename r := by
  obtain ⟨name, renamed⟩ := specifier
  obtain ⟨named, row, rfl, hnamed, hrow⟩ := List.map_eq_cons_iff.1 hrow
  have hfirst := matches_space (hspace named List.mem_cons_self)
  cases renamed with
  | none =>
    obtain rfl := List.map_eq_nil_iff.1 hrow
    have hmatches : Matches ModuleSyntax.rename _ :=
      .seq (matches_identifier name) (.seq (.right .empty) (.seq (matches_space htail) .empty))
    refine ⟨named.gap, _, ?_, hfirst, hmatches⟩
    simp [LaidLine.rowText, hnamed, Token.text]
  | some other =>
    obtain ⟨as, row, rfl, has, hrow⟩ := List.map_eq_cons_iff.1 hrow
    obtain ⟨second, row, rfl, hsecond, hrow⟩ := List.map_eq_cons_iff.1 hrow
    obtain rfl := List.map_eq_nil_iff.1 hrow
    have hgap : as.gap ≠ [] := hseparated.1 (by rw [hnamed]; rfl) (by rw [has]; rfl)
    have hgap' : second.gap ≠ [] := hseparated.2.1 (by rw [has]; rfl) (by rw [hsecond]; rfl)
    have hmatches : Matches ModuleSyntax.rename _ :=
      .seq (matches_identifier name) (.seq (.left (.seq (matches_gap_of_space hgap
        (hspace as (by simp))) (.seq (matches_word_iff.2 rfl) (.seq (matches_gap_of_space hgap'
          (hspace second (by simp))) (.seq (matches_identifier other) .empty)))))
        (.seq (matches_space htail) .empty))
    refine ⟨named.gap, _, ?_, hfirst, hmatches⟩
    simp [LaidLine.rowText, hnamed, has, hsecond, Token.text, Identifier.asWord]

theorem matches_names {names : NameList} (hspace : ∀ s ∈ row, IsSpace s.gap)
    (hseparated : Separated row) (htail : IsSpace tail)
    (hrow : row.map (·.token) = names.tokens) :
    ∃ b u w, LaidLine.rowText row ++ tail = b ++ (u ++ w) ∧ Matches blanks b ∧
      Matches (many (all [ModuleSyntax.rename, char ',', blanks])) u ∧
      Matches (optional ModuleSyntax.rename) w := by
  induction names generalizing row with
  | nil =>
    obtain rfl := List.map_eq_nil_iff.1 hrow
    exact ⟨tail, [], [], by simp [LaidLine.rowText], matches_space htail, .none, .right .empty⟩
  | last specifier =>
    obtain ⟨b, r, htext, hb, hr⟩ := matches_rename hspace hseparated htail hrow
    exact ⟨b, [], r, htext, hb, .none, .left hr⟩
  | cons specifier names ih =>
    obtain ⟨first, row, rfl, hfirst, hrow⟩ := List.map_eq_append_iff.1 hrow
    obtain ⟨comma, rest, rfl, hcomma, hrest⟩ := List.map_eq_cons_iff.1 hrow
    obtain ⟨b, r, hrename, hb, hr⟩ := matches_rename (fun s hs => hspace s (by simp [hs]))
      (separated_of_append hseparated) (hspace comma (by simp)) hfirst
    obtain ⟨b', u, w, htext, hb', hu, hw⟩ := ih (fun s hs => hspace s (by simp [hs]))
      (separated_of_cons (separated_of_append_right hseparated)) hrest
    have hmore : Matches (all [ModuleSyntax.rename, char ',', blanks]) _ :=
      .seq hr (.seq (matches_char ',')
        (.seq hb' .empty))
    refine ⟨b, _, w, ?_, hb, .more hmore hu, hw⟩
    rw [LaidLine.rowText_append, LaidLine.rowText_cons, hcomma, Token.text,
      ← List.append_assoc, ← List.append_assoc, hrename]
    simp only [List.append_assoc, List.cons_append, List.nil_append, htext]

theorem bindingNames_of_holdsNames {line : LaidLine} (h : line.HoldsNames) :
    ModuleSyntax.bindingNames.accepts line.text := by
  obtain ⟨names, hnames⟩ := h.names
  obtain ⟨b, u, w, htext, hb, hu, hw⟩ :=
    matches_names line.row_space line.separated line.tail_space hnames
  have hmatches : Matches ModuleSyntax.bindingNames _ := .seq hb (.seq hu (.seq hw .empty))
  rw [accepts_iff, text_of_bare h.bare, htext]
  simpa using hmatches

theorem bindingNames_iff {line : LaidLine} :
    ModuleSyntax.bindingNames.accepts line.text ↔ line.HoldsNames :=
  ⟨LaidLine.holdsNames_of_bindingNames, bindingNames_of_holdsNames⟩

end

end LivePreview.Source
