import LivePreview.Proofs.Source.Passage

/-!
The parts that a line can play in a binding list written over several lines. A line plays at most
one of them: it opens a list of one kind, or holds names, or closes a list, or is a declaration.
-/

namespace LivePreview.Source

open LivePreview.Text
open LivePreview.Text.Pattern

def BlockKind.opener : BlockKind → Pattern
  | .importing => ModuleSyntax.importOpening
  | .exporting => ModuleSyntax.exportOpening

variable {u : List Char} {kind kind' : BlockKind}

theorem not_isDeclaration_of_opener (h : Matches kind.opener u) : isDeclaration u = false := by
  rw [← accepts_iff] at h
  have havoids : kind.opener.avoids ['\x7d', '\'', '"'] := by cases kind <;> decide
  have himport : ModuleSyntax.importDeclaration.requires ['\x7d', '\'', '"'] := by decide
  have hsideEffect : ModuleSyntax.sideEffectImport.requires ['\x7d', '\'', '"'] := by decide
  have hnames : ModuleSyntax.exportedNames.requires ['\x7d', '\'', '"'] := by decide
  have hall : ModuleSyntax.exportAll.requires ['\x7d', '\'', '"'] := by decide
  have hname : ModuleSyntax.exportedName.accepts u = false := by
    have hplain : ModuleSyntax.exportedName.avoids ['\x7b'] := by decide
    have hbrace : kind.opener.requires ['\x7b'] := by cases kind <;> decide
    rw [← Bool.not_eq_true]
    intro haccepts
    rw [not_accepts_of_requires hplain hbrace haccepts] at h
    cases h
  rw [isDeclaration, not_accepts_of_requires havoids himport h,
    not_accepts_of_requires havoids hsideEffect h, hname,
    not_accepts_of_requires havoids hnames h, not_accepts_of_requires havoids hall h]
  rfl

theorem ofBody_eq_opening_iff : LineRole.ofBody u = .opening kind ↔ Matches kind.opener u := by
  constructor
  · intro h
    unfold LineRole.ofBody at h
    split at h
    · cases h
    · split at h
      · rename_i hopens
        cases h
        exact accepts_iff.1 hopens
      · split at h
        · rename_i hopens
          cases h
          exact accepts_iff.1 hopens
        · cases h
  · intro h
    have haccepts := accepts_iff.2 h
    rw [LineRole.ofBody, not_isDeclaration_of_opener h]
    cases kind with
    | importing =>
      rw [if_neg Bool.false_ne_true]
      exact if_pos haccepts
    | exporting =>
      have hword : firstWord u = Identifier.exportWord.chars :=
        firstWord_of_beginsWith (by decide) h
      have hother : ¬ ModuleSyntax.importOpening.accepts u = true := by
        rw [accepts_iff]
        intro himport
        have himportWord : firstWord u = Identifier.importWord.chars :=
          firstWord_of_beginsWith (by decide) himport
        rw [himportWord] at hword
        exact absurd hword (by decide)
      rw [if_neg Bool.false_ne_true, if_neg hother]
      exact if_pos haccepts

theorem opener_inj (h : Matches kind.opener u) (h' : Matches kind'.opener u) : kind = kind' := by
  rw [← ofBody_eq_opening_iff] at h h'
  exact LineRole.opening.inj (h.symm.trans h')

theorem not_closing_of_opener (h : Matches kind.opener u) : ¬ Matches kind'.closing u := by
  have havoids : kind.opener.avoids ['\x7d'] := by cases kind <;> decide
  have hrequires : kind'.closing.requires ['\x7d'] := by cases kind' <;> decide
  rw [← accepts_iff, not_accepts_of_requires havoids hrequires (accepts_iff.2 h)]
  exact Bool.false_ne_true

theorem not_names_of_opener (h : Matches kind.opener u) :
    ¬ Matches ModuleSyntax.bindingNames u := by
  rw [← accepts_iff, not_bindingNames_of_opening (ofBody_eq_opening_iff.2 h)]
  exact Bool.false_ne_true

theorem not_names_of_closing (h : Matches kind.closing u) :
    ¬ Matches ModuleSyntax.bindingNames u := by
  rw [← accepts_iff, not_bindingNames_of_closing (accepts_iff.2 h)]
  exact Bool.false_ne_true

theorem exists_brace_of_closing (h : Matches kind.closing u) :
    ∃ front rest, u = front ++ '\x7d' :: rest ∧ ∀ c ∈ front, c ∉ ['\x7b', '\'', '"'] := by
  obtain ⟨q, hq⟩ : ∃ q, kind.closing =
      .seq (.many (noneOf "\x7b\x7d'\"")) (.seq (char '\x7d') q) := by
    cases kind <;> exact ⟨_, rfl⟩
  rw [hq] at h
  obtain ⟨front, v, rfl, hfront, h⟩ := matches_seq_iff.1 h
  obtain ⟨brace, rest, rfl, hbrace, -⟩ := matches_seq_iff.1 h
  obtain ⟨c, hc, rfl⟩ := matches_symbol_iff.1 hbrace
  obtain rfl : c = '\x7d' := eq_of_beq hc
  have havoids : (Pattern.many (noneOf "\x7b\x7d'\"")).avoids ['\x7b', '\'', '"'] := by decide
  exact ⟨front, rest, rfl, not_mem_of_avoids hfront havoids⟩

theorem not_isDeclaration_of_closing (h : Matches kind.closing u) : isDeclaration u = false := by
  have hguards : declaring.all (guards ['\x7b', '\'', '"'] ['\x7d']) := by decide
  obtain ⟨front, rest, hsplit, hfront⟩ := exists_brace_of_closing h
  rw [← Bool.not_eq_true, isDeclaration_iff]
  rintro ⟨p, hp, hmatches⟩
  obtain ⟨d, hd, hmem⟩ := exists_mem_of_guards hmatches (List.all_eq_true.1 hguards p hp) _ _ _
    hsplit List.mem_cons_self
  exact hfront d hd hmem

end LivePreview.Source
