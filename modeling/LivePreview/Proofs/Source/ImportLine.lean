import LivePreview.Proofs.Text.Lines
import LivePreview.Proofs.Source.ImportLayout
import LivePreview.Proofs.Source.ModuleSyntax

namespace LivePreview.Source

open LivePreview.Text

open LivePreview.Text.Pattern

def NameEnds (text : List Char) : Prop :=
  ∀ c rest, text = c :: rest → isNameChar c = false

def firstWord (cs : List Char) : List Char :=
  (dropBlanks cs).takeWhile isNameChar

def afterFirstWord (cs : List Char) : List Char :=
  (dropBlanks cs).dropWhile isNameChar

theorem nameEnds_nil : NameEnds [] :=
  nofun

theorem nameEnds_of_matches {p : Pattern} {u : List Char} (hp : p.endsName) (h : Matches p u) :
    NameEnds u := by
  rintro c rest rfl
  exact not_isNameChar_of_endsName hp h

theorem takeWhile_of_nameEnds {u : List Char} (h : NameEnds u) : u.takeWhile isNameChar = [] := by
  cases u with
  | nil => rfl
  | cons c rest => simp [h c rest rfl]

theorem dropWhile_of_nameEnds {u : List Char} (h : NameEnds u) : u.dropWhile isNameChar = u := by
  cases u with
  | nil => rfl
  | cons c rest => simp [h c rest rfl]

section

variable {b n w : List Char}

theorem firstWord_append (hb : ∀ c ∈ b, isBlank c) (hne : n ≠ []) (hn : ∀ c ∈ n, isNameChar c)
    (hw : NameEnds w) : firstWord (b ++ (n ++ w)) = n := by
  rw [firstWord, dropBlanks_append_of_all hb, dropBlanks_append_name hne hn,
    List.takeWhile_append_of_pos hn, takeWhile_of_nameEnds hw, List.append_nil]

theorem afterFirstWord_append (hb : ∀ c ∈ b, isBlank c) (hne : n ≠ []) (hn : ∀ c ∈ n, isNameChar c)
    (hw : NameEnds w) : afterFirstWord (b ++ (n ++ w)) = w := by
  rw [afterFirstWord, dropBlanks_append_of_all hb, dropBlanks_append_name hne hn,
    List.dropWhile_append_of_pos hn, dropWhile_of_nameEnds hw]

theorem matches_behind_word (name : Identifier) {s : String} {q : Pattern} {u : List Char}
    (hs : s.toList = name.chars) (hq : q.endsName)
    (h : Matches (.seq blanks (.seq (word s) q)) u) :
    firstWord u = name.chars ∧ Matches q (afterFirstWord u) := by
  obtain ⟨b, v, rfl, hb, h⟩ := matches_seq_iff.1 h
  obtain ⟨n, w, rfl, hn, hw⟩ := matches_seq_iff.1 h
  rw [matches_word_iff, hs] at hn
  subst hn
  have hends := nameEnds_of_matches hq hw
  rw [firstWord_append (matches_blanks hb) name.nonempty name.isName hends,
    afterFirstWord_append (matches_blanks hb) name.nonempty name.isName hends]
  exact ⟨rfl, hw⟩

end

namespace Token

variable {token : Token} {c : Char}

theorem text_eq_cons (token : Token) : ∃ c rest, token.text = c :: rest ∧ isBlank c = false ∧
    (token.isWord = false → isNameChar c = false) := by
  cases token with
  | word name =>
    obtain ⟨c, rest, hchars⟩ := List.exists_cons_of_ne_nil name.nonempty
    refine ⟨c, rest, hchars, ?_, nofun⟩
    have hname : isNameChar c := name.isName c (by simp [hchars])
    cases hc : isBlank c with
    | false => rfl
    | true =>
      rw [not_isNameChar_of_isBlank hc] at hname
      cases hname
  | literal name =>
    refine ⟨name.quote, _, rfl, ?_, fun _ => ?_⟩
    · rcases name.isQuote with h | h <;> rw [h] <;> decide
    · rcases name.isQuote with h | h <;> rw [h] <;> decide
  | comma => exact ⟨_, _, rfl, by decide, fun _ => by decide⟩
  | star => exact ⟨_, _, rfl, by decide, fun _ => by decide⟩
  | openBrace => exact ⟨_, _, rfl, by decide, fun _ => by decide⟩
  | closeBrace => exact ⟨_, _, rfl, by decide, fun _ => by decide⟩
  | semicolon => exact ⟨_, _, rfl, by decide, fun _ => by decide⟩

theorem text_eq_append (token : Token) :
    ∃ before c, token.text = before ++ [c] ∧ isLineEnd c = false := by
  cases token with
  | word name =>
    obtain ⟨before, c, hchars⟩ := List.eq_nil_or_concat name.chars |>.resolve_left name.nonempty
    rw [List.concat_eq_append] at hchars
    refine ⟨before, c, hchars, ?_⟩
    have hname : isNameChar c := name.isName c (by simp [hchars])
    cases hc : isLineEnd c with
    | false => rfl
    | true =>
      have hblank : isBlank c := by
        simp only [isLineEnd, Bool.or_eq_true, beq_iff_eq] at hc
        rcases hc with rfl | rfl <;> decide
      rw [not_isNameChar_of_isBlank hblank] at hname
      cases hname
  | literal name =>
    refine ⟨name.quote :: name.text, name.quote, rfl, ?_⟩
    rcases name.isQuote with h | h <;> rw [h] <;> decide
  | comma => exact ⟨[], _, rfl, by decide⟩
  | star => exact ⟨[], _, rfl, by decide⟩
  | openBrace => exact ⟨[], _, rfl, by decide⟩
  | closeBrace => exact ⟨[], _, rfl, by decide⟩
  | semicolon => exact ⟨[], _, rfl, by decide⟩

theorem not_newline_mem_text (token : Token) : '\n' ∉ token.text := by
  cases token with
  | word name =>
    intro h
    have hname := name.isName _ h
    revert hname
    decide
  | literal name =>
    rcases name.isQuote with h | h <;> simp [text, h, name.oneLine]
  | _ => decide

def isMark : Token → Bool
  | .word _ => false
  | .literal _ => false
  | _ => true

theorem not_isNameChar_of_isMark {mark : Token} (hmark : mark.isMark) (hc : mark.text = [c]) :
    isNameChar c = false := by
  cases mark with
  | word name => cases hmark
  | literal name => cases hmark
  | _ =>
    cases hc
    decide

theorem eq_of_mem_text (mark : Token) (hmark : mark.isMark) (hc : mark.text = [c])
    (h : c ∈ token.text) : token = mark ∨ ∃ name, token = .literal name := by
  cases token with
  | literal name => exact .inr ⟨name, rfl⟩
  | word name =>
    have hname := name.isName c h
    rw [not_isNameChar_of_isMark hmark hc] at hname
    cases hname
  | _ =>
    rw [List.mem_singleton.1 h] at hc
    left
    cases mark with
    | word name => cases hmark
    | literal name => cases hmark
    | _ => first | rfl | cases hc

end Token

namespace LaidLine

variable {line : LaidLine} {row : List Spaced} {tail : List Char} {comment : Option (List Char)}
  {gap : List Char} {token : Token} {c : Char}

theorem isBlank_of_isSpace {u : List Char} (h : IsSpace u) : ∀ c ∈ u, isBlank c :=
  fun c hc => (h c hc).1

theorem rowText_cons (s : Spaced) (row : List Spaced) :
    rowText (s :: row) = s.gap ++ (s.token.text ++ rowText row) := by
  simp [rowText]

theorem rowText_append (row other : List Spaced) :
    rowText (row ++ other) = rowText row ++ rowText other := by
  simp [rowText]

theorem mem_rowText (hspace : ∀ s ∈ row, IsSpace s.gap) (hc : isBlank c = false)
    (h : c ∈ rowText row) : ∃ s ∈ row, c ∈ s.token.text := by
  obtain ⟨s, hs, hmem⟩ := List.mem_flatMap.1 h
  rcases List.mem_append.1 hmem with hgap | htext
  · rw [(hspace s hs c hgap).1] at hc
    cases hc
  · exact ⟨s, hs, htext⟩

theorem nameEnds_tail (htail : IsSpace tail) (comment : Option (List Char)) :
    NameEnds (tail ++ commentText comment) := by
  intro c rest heq
  cases tail with
  | nil =>
    cases comment with
    | none => cases heq
    | some words =>
      obtain ⟨rfl, -⟩ := List.cons.inj heq
      decide
  | cons d tail =>
    obtain ⟨rfl, -⟩ := List.cons.inj heq
    exact not_isNameChar_of_isBlank (htail d List.mem_cons_self).1

theorem nameEnds_behind {s : Spaced} (hword : s.token.isWord)
    (hspace : ∀ r ∈ row, IsSpace r.gap) (hseparated : Separated (s :: row))
    (htail : IsSpace tail) (comment : Option (List Char)) :
    NameEnds (rowText row ++ (tail ++ commentText comment)) := by
  cases row with
  | nil => exact nameEnds_tail htail comment
  | cons r row =>
    intro c rest heq
    rw [rowText_cons, List.append_assoc] at heq
    cases hgap : r.gap with
    | cons d gap =>
      rw [hgap] at heq
      obtain ⟨rfl, -⟩ := List.cons.inj heq
      exact not_isNameChar_of_isBlank (hspace r List.mem_cons_self d (by simp [hgap])).1
    | nil =>
      obtain ⟨d, more, htext, -, hname⟩ := r.token.text_eq_cons
      rw [hgap, htext] at heq
      obtain ⟨rfl, -⟩ := List.cons.inj heq
      cases hr : r.token.isWord with
      | true => exact absurd hgap (hseparated.1 hword hr)
      | false => exact hname hr

theorem text_of_row {s : Spaced} (hrow : line.row = s :: row) :
    line.text =
      s.gap ++ (s.token.text ++ (rowText row ++ (line.tail ++ commentText line.comment))) := by
  rw [text, hrow, rowText_cons]
  simp only [List.append_assoc]

theorem nameEnds_of_row {s : Spaced} (hrow : line.row = s :: row) (hword : s.token.isWord) :
    NameEnds (rowText row ++ (line.tail ++ commentText line.comment)) := by
  refine nameEnds_behind hword (fun r hr => line.row_space r ?_) (hrow ▸ line.separated)
    line.tail_space line.comment
  rw [hrow]
  exact List.mem_cons_of_mem s hr

theorem firstWord_of_row {name : Identifier} (hrow : line.row = ⟨gap, .word name⟩ :: row) :
    firstWord line.text = name.chars := by
  rw [text_of_row hrow]
  have hgap : IsSpace gap := line.row_space ⟨gap, .word name⟩ (by simp [hrow])
  exact firstWord_append (isBlank_of_isSpace hgap) name.nonempty name.isName
    (nameEnds_of_row hrow rfl)

theorem afterFirstWord_of_row {name : Identifier} (hrow : line.row = ⟨gap, .word name⟩ :: row) :
    afterFirstWord line.text = rowText row ++ (line.tail ++ commentText line.comment) := by
  rw [text_of_row hrow]
  have hgap : IsSpace gap := line.row_space ⟨gap, .word name⟩ (by simp [hrow])
  exact afterFirstWord_append (isBlank_of_isSpace hgap) name.nonempty name.isName
    (nameEnds_of_row hrow rfl)

theorem row_of_firstWord (h : firstWord line.text ≠ []) :
    ∃ gap name row, line.row = ⟨gap, .word name⟩ :: row ∧ firstWord line.text = name.chars := by
  cases hrow : line.row with
  | nil =>
    refine absurd ?_ h
    rw [text, hrow, firstWord, rowText, List.flatMap_nil, List.nil_append,
      dropBlanks_append_of_all (isBlank_of_isSpace line.tail_space)]
    cases line.comment with
    | none => rfl
    | some words => rfl
  | cons s row =>
    obtain ⟨gap, token⟩ := s
    cases hword : token.isWord with
    | true =>
      cases token with
      | word name => exact ⟨gap, name, row, rfl, firstWord_of_row hrow⟩
      | _ => cases hword
    | false =>
      have hgap : IsSpace gap := line.row_space ⟨gap, token⟩ (by rw [hrow]; exact List.mem_cons_self)
      obtain ⟨c, rest, htext, hblank, hname⟩ := token.text_eq_cons
      refine absurd ?_ h
      rw [text_of_row hrow, firstWord, dropBlanks_append_of_all (isBlank_of_isSpace hgap), htext]
      simp [dropBlanks, hblank, hname hword]

theorem mem_text_cases (hc : isBlank c = false) (h : c ∈ line.text) :
    (∃ token ∈ line.tokens, c ∈ token.text) ∨
      ∃ words ∈ line.comment, c = '/' ∨ c ∈ words := by
  rw [text, List.mem_append, List.mem_append] at h
  rcases h with hrow | htail | hcomment
  · obtain ⟨s, hs, hmem⟩ := mem_rowText line.row_space hc hrow
    exact .inl ⟨s.token, List.mem_map_of_mem hs, hmem⟩
  · rw [(line.tail_space c htail).1] at hc
    cases hc
  · cases hwords : line.comment with
    | none =>
      rw [hwords] at hcomment
      cases hcomment
    | some words =>
      rw [hwords] at hcomment
      simp only [commentText, Option.elim_some, List.mem_cons, or_self_left] at hcomment
      exact .inr ⟨words, rfl, hcomment⟩

theorem text_of_split {s : Spaced} {more : List Spaced} (hrow : line.row = row ++ s :: more) :
    line.text = (rowText row ++ s.gap) ++
      (s.token.text ++ (rowText more ++ (line.tail ++ commentText line.comment))) := by
  rw [text, hrow, rowText_append, rowText_cons]
  simp only [List.append_assoc]

theorem text_of_token (h : token ∈ line.tokens) :
    ∃ front rest, line.text = front ++ (token.text ++ rest) := by
  obtain ⟨s, hs, rfl⟩ := List.mem_map.1 h
  obtain ⟨row, more, hrow⟩ := List.append_of_mem hs
  exact ⟨_, _, text_of_split hrow⟩

theorem mem_text_of_token (ht : token ∈ line.tokens) (hc : c ∈ token.text) : c ∈ line.text := by
  obtain ⟨front, rest, htext⟩ := text_of_token ht
  rw [htext]
  exact List.mem_append_right front (List.mem_append_left rest hc)

theorem mem_text_of_comment {words : List Char} (hwords : words ∈ line.comment)
    (hc : c = '/' ∨ c ∈ words) : c ∈ line.text := by
  rw [text, hwords, List.mem_append, List.mem_append]
  refine .inr (.inr ?_)
  simpa only [commentText, Option.elim_some, List.mem_cons, or_self_left] using hc

theorem not_newline_mem_text (line : LaidLine) : '\n' ∉ line.text := by
  simp only [text, List.mem_append, not_or]
  refine ⟨fun h => ?_, fun h => (line.tail_space _ h).2 rfl, ?_⟩
  · obtain ⟨s, hs, hmem⟩ := List.mem_flatMap.1 h
    rcases List.mem_append.1 hmem with hgap | htext
    · exact (line.row_space s hs _ hgap).2 rfl
    · exact s.token.not_newline_mem_text htext
  · cases hwords : line.comment with
    | none => exact List.not_mem_nil
    | some words => simp [commentText, line.comment_line words hwords]

def trimmed (line : LaidLine) : LaidLine where
  row := line.row
  tail := if line.comment.isSome then line.tail else dropEndWhile isLineEnd line.tail
  comment := line.comment.map (dropEndWhile isLineEnd)
  row_space := line.row_space
  tail_space := by
    intro c hc
    split at hc
    · exact line.tail_space c hc
    · exact line.tail_space c (mem_of_mem_dropEndWhile hc)
  comment_line := by
    intro words hwords
    obtain ⟨whole, hwhole, rfl⟩ := Option.map_eq_some_iff.1 hwords
    exact fun hmem => line.comment_line whole hwhole (mem_of_mem_dropEndWhile hmem)
  separated := line.separated

theorem dropEndWhile_rowText (hne : row ≠ []) {rest : List Char} :
    dropEndWhile isLineEnd (rowText row ++ rest) = rowText row ++ dropEndWhile isLineEnd rest := by
  obtain ⟨before, s, rfl⟩ := List.eq_nil_or_concat row |>.resolve_left hne
  obtain ⟨word, c, htext, hc⟩ := s.token.text_eq_append
  have hrow : rowText (before.concat s) = rowText before ++ s.gap ++ word ++ [c] := by
    rw [List.concat_eq_append, rowText_append, rowText_cons, htext]
    simp [rowText]
  rw [hrow, List.append_assoc _ [c], List.singleton_append, dropEndWhile_append_cons hc,
    List.append_assoc _ [c], List.singleton_append]

theorem body_text (line : LaidLine) {ending : List Char} (hending : ∀ c ∈ ending, isLineEnd c) :
    Line.body (line.text ++ ending) = line.trimmed.text := by
  rw [Line.body, dropEndWhile_append_of_all hending]
  cases hwords : line.comment with
  | some words =>
    have hslash : isLineEnd '/' = false := by decide
    have htext : line.text = (rowText line.row ++ line.tail ++ ['/']) ++ '/' :: words := by
      simp [text, hwords, commentText]
    rw [htext, dropEndWhile_append_cons hslash]
    simp [text, trimmed, hwords, commentText]
  | none =>
    have htext : line.text = rowText line.row ++ line.tail := by
      simp [text, hwords, commentText]
    have htrimmed : line.trimmed.text = rowText line.row ++ dropEndWhile isLineEnd line.tail := by
      simp [text, trimmed, hwords, commentText]
    rw [htext, htrimmed]
    by_cases hrow : line.row = []
    · rw [hrow]
      rfl
    · exact dropEndWhile_rowText hrow

end LaidLine

end LivePreview.Source
