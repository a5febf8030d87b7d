import LivePreview.Proofs.Document.Mark
import LivePreview.Proofs.Source.LiteralBody

namespace LivePreview.Source

def Occurs (fold : Char → Char) (word text : List Char) : Prop :=
  ∃ part, part <:+: text ∧ part.map fold = word

def endTagWord : List Char :=
  ['<', '/', 's', 'c', 'r', 'i', 'p', 't']

def commentWord : List Char :=
  ['<', '!', '-', '-']

def CutAtHazards : List (List Char) → Prop
  | [] => False
  | [_] => True
  | piece :: rest => (∃ text, piece = text ++ ['<']) ∧ isHazard rest.flatten ∧ CutAtHazards rest

/-- What one replacement does: a backslash behind each `<` that begins the dangerous word. -/
def escapeWhere (isDanger : List Char → Bool) : List Char → List Char
  | [] => []
  | c :: cs =>
      if c = '<' ∧ isDanger cs then c :: '\\' :: escapeWhere isDanger cs
      else c :: escapeWhere isDanger cs

variable {word cs rest : List Char} {c : Char}

theorem foldCase_eq_toLower (h : c ≠ 'ſ') : foldCase c = c.toLower :=
  if_neg h

theorem foldCase_eq_iff {d : Char} (hd : d.val < 97 ∨ 122 < d.val) (hfixed : foldCase d = d) :
    foldCase c = d ↔ c = d := by
  constructor
  · intro h
    unfold foldCase at h
    split at h
    · subst h
      exact absurd hd (by decide)
    · exact Document.toLower_eq hd h
  · rintro rfl
    exact hfixed

theorem startsFolded_iff :
    startsFolded word cs ↔ ∃ part rest, cs = part ++ rest ∧ part.map foldCase = word := by
  induction word generalizing cs with
  | nil => simp [startsFolded]
  | cons w ws ih =>
    cases cs with
    | nil => simp [startsFolded]
    | cons c cs =>
      simp only [startsFolded, Bool.and_eq_true, beq_iff_eq, ih]
      constructor
      · rintro ⟨rfl, part, rest, rfl, rfl⟩
        exact ⟨c :: part, rest, rfl, rfl⟩
      · rintro ⟨part, rest, hcs, hpart⟩
        cases part with
        | nil => cases hpart
        | cons d part =>
          obtain ⟨rfl, rfl⟩ := List.cons.inj hcs
          obtain ⟨rfl, rfl⟩ := List.cons.inj hpart
          exact ⟨rfl, part, rest, rfl, rfl⟩

theorem isHazard_iff : isHazard cs ↔
    (∃ part rest, cs = '/' :: (part ++ rest) ∧ part.map foldCase = ['s', 'c', 'r', 'i', 'p', 't']) ∨
      ∃ rest, cs = '!' :: '-' :: '-' :: rest := by
  unfold isHazard
  split
  · rw [startsFolded_iff]
    simp
  · simp
  · rename_i hslash hdashes
    simp only [Bool.false_eq_true, false_iff, not_or, not_exists, not_and]
    exact ⟨fun part rest hcs => absurd hcs (hslash _), hdashes⟩

theorem isHarmless_eq_false_iff :
    isHarmless cs = false ↔ ∃ before rest, cs = before ++ '<' :: rest ∧ isHazard rest := by
  induction cs with
  | nil => simp [isHarmless]
  | cons c cs ih =>
    rw [← Bool.not_eq_true, isHarmless_cons_iff, Classical.not_and_iff_not_or_not,
      Bool.not_eq_true, ih]
    constructor
    · rintro (h | ⟨before, rest, rfl, hrest⟩)
      · obtain ⟨rfl, hcs⟩ := Classical.not_imp.1 h
        exact ⟨[], cs, rfl, Bool.not_eq_false _ ▸ hcs⟩
      · exact ⟨c :: before, rest, rfl, hrest⟩
    · rintro ⟨before, rest, hcs, hrest⟩
      cases before with
      | nil =>
        obtain ⟨rfl, rfl⟩ := List.cons.inj hcs
        exact .inl fun h => absurd (h rfl) (by simp [hrest])
      | cons b before =>
        obtain ⟨rfl, rfl⟩ := List.cons.inj hcs
        exact .inr ⟨before, rest, rfl, hrest⟩

theorem isHarmless_iff :
    isHarmless cs ↔ ¬ commentWord <:+: cs ∧ ¬ Occurs foldCase endTagWord cs := by
  rw [← not_or, ← Bool.not_eq_false]
  refine not_congr ?_
  rw [isHarmless_eq_false_iff]
  constructor
  · rintro ⟨before, rest, rfl, hrest⟩
    rcases isHazard_iff.1 hrest with ⟨part, rest, rfl, hpart⟩ | ⟨rest, rfl⟩
    · refine .inr ⟨'<' :: '/' :: part, ⟨before, rest, by simp⟩, ?_⟩
      rw [List.map_cons, List.map_cons, hpart]
      decide
    · exact .inl ⟨before, rest, by simp [commentWord]⟩
  · rintro (⟨before, rest, rfl⟩ | ⟨part, ⟨before, rest, rfl⟩, hpart⟩)
    · exact ⟨before, '!' :: '-' :: '-' :: rest, by simp [commentWord], rfl⟩
    · obtain ⟨c, tail, rfl, hc, htail⟩ := List.map_eq_cons_iff.1 hpart
      obtain ⟨d, part, rfl, hd, hscript⟩ := List.map_eq_cons_iff.1 htail
      obtain rfl := (foldCase_eq_iff (by decide) (by decide)).1 hc
      obtain rfl := (foldCase_eq_iff (by decide) (by decide)).1 hd
      exact ⟨before, '/' :: (part ++ rest), by simp, isHazard_iff.2 (.inl ⟨part, rest, rfl, hscript⟩)⟩

theorem occurs_foldCase (hword : 'ſ' ∉ word) (h : Occurs Char.toLower word cs) :
    Occurs foldCase word cs := by
  obtain ⟨part, hpart, rfl⟩ := h
  refine ⟨part, hpart, List.map_congr_left fun c hc => foldCase_eq_toLower ?_⟩
  rintro rfl
  exact hword (List.mem_map.2 ⟨'ſ', hc, by decide⟩)

theorem isSome_isPrefixOf?_escapeWhere (isDanger : List Char → Bool) (hword : '<' ∉ word) :
    (word.isPrefixOf? (escapeWhere isDanger cs)).isSome = (word.isPrefixOf? cs).isSome := by
  induction word generalizing cs with
  | nil => rfl
  | cons w ws ih =>
    obtain ⟨hw, hws⟩ := List.ne_and_not_mem_of_not_mem_cons hword
    cases cs with
    | nil => rfl
    | cons c cs =>
      rw [escapeWhere]
      split
      · rename_i hdanger
        have hother : (w == '<') = false := beq_false_of_ne hw.symm
        simp [List.isPrefixOf?, hdanger.1, hother]
      · by_cases hw : w == c <;> simp [List.isPrefixOf?, hw, ih hws]

theorem escapeWhere_isComment_isEndTag (cs : List Char) :
    escapeWhere isComment (escapeWhere isEndTag cs) = escapeHazards cs := by
  induction cs with
  | nil => rfl
  | cons c cs ih =>
    -- What stands behind a `<` begins a comment after the first replacement just as before it.
    have hcomment : isComment (escapeWhere isEndTag cs) = isComment cs :=
      isSome_isPrefixOf?_escapeWhere isEndTag (by decide)
    by_cases hend : c = '<' ∧ isEndTag cs
    · have hbackslash : isComment ('\\' :: escapeWhere isEndTag cs) = false := rfl
      rw [escapeWhere, if_pos hend, escapeHazards, isHazard_eq, escapeWhere, hbackslash,
        escapeWhere]
      simp [hend, ih]
    · have hsame : c = '<' ∧ (isEndTag cs || isComment cs) ↔ c = '<' ∧ isComment cs := by
        refine and_congr_right fun hc => ?_
        rw [Bool.or_eq_true, or_iff_right fun htag => hend ⟨hc, htag⟩]
      rw [escapeWhere, if_neg hend, escapeHazards, isHazard_eq, escapeWhere, hcomment, ih]
      simp only [hsame]

theorem exists_cutAtHazards (cs : List Char) : ∃ pieces, CutAtHazards pieces ∧
    pieces.flatten = cs ∧ ['\\'].intercalate pieces = escapeHazards cs := by
  induction cs with
  | nil => exact ⟨[[]], trivial, rfl, rfl⟩
  | cons c cs ih =>
    obtain ⟨pieces, hcut, rfl, hjoin⟩ := ih
    obtain ⟨piece, pieces, rfl⟩ : ∃ piece rest, pieces = piece :: rest :=
      List.exists_cons_of_ne_nil (by rintro rfl; exact hcut)
    rw [escapeHazards, ← hjoin]
    split
    · rename_i hhazard
      obtain ⟨rfl, hhazard⟩ := hhazard
      exact ⟨['<'] :: piece :: pieces, ⟨⟨[], rfl⟩, hhazard, hcut⟩, rfl, by simp [List.intercalate]⟩
    · refine ⟨(c :: piece) :: pieces, ?_, rfl, ?_⟩
      · cases pieces with
        | nil => trivial
        | cons next pieces =>
          obtain ⟨⟨text, rfl⟩, hrest⟩ := hcut
          exact ⟨⟨c :: text, rfl⟩, hrest⟩
      · cases pieces <;> simp [List.intercalate]

/-- Escaped script data holds no hazard, and escaping it again does nothing, as it does to every text
that holds none. Taking the backslashes away gives the text back, and as the body of a string literal
it reads the same with and without them. It is what two replacements come to, of the end tags and
then of the comments. -/
theorem defuse_transparent (source : String) :
    (¬ Occurs Char.toLower endTagWord (defuse source).toList ∧
      ¬ commentWord <:+: (defuse source).toList) ∧
    defuse (defuse source) = defuse source ∧
    (defuse source = source ↔
      ¬ commentWord <:+: source.toList ∧ ¬ Occurs foldCase endTagWord source.toList) ∧
    (∃ pieces, CutAtHazards pieces ∧ pieces.flatten = source.toList ∧
      ['\\'].intercalate pieces = (defuse source).toList) ∧
    readLiteral (defuse source).toList = readLiteral source.toList ∧
    escapeWhere isComment (escapeWhere isEndTag source.toList) = (defuse source).toList := by
  have hout : (defuse source).toList = escapeHazards source.toList := String.toList_ofList
  have hharmless : isHarmless (defuse source).toList := by
    rw [hout]
    exact isHarmless_escapeHazards source.toList
  obtain ⟨hcomment, hend⟩ := isHarmless_iff.1 hharmless
  refine ⟨⟨fun h => hend (occurs_foldCase (by decide) h), hcomment⟩, ?_, ?_, ?_, ?_, ?_⟩
  · have hagain : escapeHazards (defuse source).toList = (defuse source).toList :=
      escapeHazards_of_isHarmless hharmless
    calc defuse (defuse source) = .ofList (escapeHazards (defuse source).toList) := rfl
      _ = defuse source := by rw [hagain, String.ofList_toList]
  · rw [← isHarmless_iff]
    constructor
    · intro hsame
      rwa [hsame] at hharmless
    · intro hsource
      rw [defuse, escapeHazards_of_isHarmless hsource]
      exact String.ofList_toList
  · rw [hout]
    exact exists_cutAtHazards source.toList
  · rw [hout]
    exact readLiteral_escapeHazards source.toList
  · rw [hout]
    exact escapeWhere_isComment_isEndTag source.toList

end LivePreview.Source
