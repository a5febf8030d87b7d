import LivePreview.Proofs.Source.ImportRole
import LivePreview.Proofs.Source.Strip

/-!
Stretches of lines that the pass finishes: no list is open behind them, so what it leaves of them
does not depend on the lines that follow. Lines without module words pass through as they are.
-/

namespace LivePreview.Source

open LivePreview.Text
open LivePreview.Text.Pattern

inductive Leaves (free : Option RootName) : Option OpenBlock → List Line → List Char → Prop where
  | nil : Leaves free none [] []
  | cons {block : Option OpenBlock} {line : Line} {ls : List Line} {text : List Char} :
      Leaves free (stripLine free block line).block ls text →
      Leaves free block (line :: ls) ((stripLine free block line).text ++ text)

variable {free : Option RootName} {block : Option OpenBlock} {line : Line} {ls more : List Line}
  {text rest : List Char}

theorem Leaves.stripLines_append (h : Leaves free block ls text) (more : List Line) :
    stripLines free block (ls ++ more) = text ++ stripLines free none more := by
  induction h with
  | nil => rfl
  | cons _ ih => rw [List.cons_append, stripLines_cons, ih, List.append_assoc]

theorem Leaves.stripLines_eq (h : Leaves free block ls text) : stripLines free block ls = text := by
  have hall := h.stripLines_append []
  rwa [List.append_nil, stripLines_nil, heldText_none, List.append_nil] at hall

theorem Leaves.append (h : Leaves free block ls text) (hmore : Leaves free none more rest) :
    Leaves free block (ls ++ more) (text ++ rest) := by
  induction h with
  | nil => exact hmore
  | cons _ ih =>
    rw [List.append_assoc]
    exact .cons ih

theorem Leaves.cons_of_eq {out : Stripped} (hout : stripLine free block line = out)
    (h : Leaves free out.block ls text) : Leaves free block (line :: ls) (out.text ++ text) := by
  subst hout
  exact .cons h

theorem stripLine_none_of_program (hrole : LineRole.ofBody line.body = .program) :
    stripLine free none line = ⟨unexport free line, none⟩ := by
  rw [stripLine, stripOutside, hrole]

theorem stripLine_none_of_declaration (hrole : LineRole.ofBody line.body = .declaration) :
    stripLine free none line = ⟨[], none⟩ := by
  rw [stripLine, stripOutside, hrole]

theorem stripLine_none_of_opening {kind : BlockKind}
    (hrole : LineRole.ofBody line.body = .opening kind) :
    stripLine free none line = ⟨[], some ⟨kind, [line]⟩⟩ := by
  rw [stripLine, stripOutside, hrole]

theorem not_bindingNames_of_closing {kind : BlockKind} {body : List Char}
    (h : kind.closing.accepts body) : ModuleSyntax.bindingNames.accepts body = false := by
  have havoids : ModuleSyntax.bindingNames.avoids ['\x7d'] := by decide
  have hrequires : kind.closing.requires ['\x7d'] := by cases kind <;> decide
  cases hbinding : ModuleSyntax.bindingNames.accepts body with
  | false => rfl
  | true =>
    rw [not_accepts_of_requires havoids hrequires hbinding] at h
    cases h

theorem block_stripOutside (free : Option RootName)
    (h : ∀ kind, LineRole.ofBody line.body ≠ .opening kind) :
    (stripOutside free line).block = none := by
  unfold stripOutside
  split
  · rfl
  · rename_i kind hrole
    exact absurd hrole (h kind)
  · rfl

def WithoutModuleWords (text : List Char) : Prop :=
  ¬ Identifier.importWord.chars <:+: text ∧ ¬ Identifier.exportWord.chars <:+: text

theorem WithoutModuleWords.of_isInfix (h : WithoutModuleWords text) (hrest : rest <:+: text) :
    WithoutModuleWords rest :=
  ⟨fun hword => h.1 (hword.trans hrest), fun hword => h.2 (hword.trans hrest)⟩

theorem isInfix_firstWord (text : List Char) : firstWord text <:+: text :=
  (List.takeWhile_prefix isNameChar).isInfix.trans (dropBlanks_suffix text).isInfix

theorem WithoutModuleWords.not_matches {p : Pattern} (h : WithoutModuleWords text)
    (hp : wordStart p) : ¬ Matches p text := by
  intro hmatches
  have hinfix := isInfix_firstWord text
  rcases Bool.or_eq_true_iff.1 hp with hp | hp
  · rw [firstWord_of_beginsWith hp hmatches] at hinfix
    exact h.1 hinfix
  · rw [firstWord_of_beginsWith hp hmatches] at hinfix
    exact h.2 hinfix

theorem WithoutModuleWords.ofBody (h : WithoutModuleWords text) :
    LineRole.ofBody text = .program := by
  have hdeclaring : declaring.all wordStart := by decide
  have hopening : opening.all wordStart := by decide
  rw [ofBody_eq_program_iff]
  constructor
  · rw [← Bool.not_eq_true, isDeclaration_iff]
    rintro ⟨p, hp, hmatches⟩
    exact h.not_matches (List.all_eq_true.1 hdeclaring p hp) hmatches
  · intro kind hrole
    obtain ⟨p, hp, hmatches⟩ := matches_of_opening hrole
    exact h.not_matches (List.all_eq_true.1 hopening p hp) hmatches

theorem WithoutModuleWords.startsExport (h : WithoutModuleWords line) :
    startsExport line = false := by
  cases hstarts : Source.startsExport line with
  | false => rfl
  | true =>
    obtain ⟨exported, hexported⟩ := Option.isSome_iff_exists.1 hstarts
    obtain ⟨gap, hdrop, -⟩ := afterWord_eq_some hexported
    refine absurd ?_ h.2
    refine List.IsInfix.trans ⟨[], gap ++ exported, ?_⟩ (dropBlanks_suffix line).isInfix
    rw [hdrop, List.append_assoc]
    rfl

theorem WithoutModuleWords.stripLine (free : Option RootName) (h : WithoutModuleWords line) :
    stripLine free none line = ⟨line, none⟩ := by
  have hbody : line.body <:+: line := (isPrefix_dropEndWhile isLineEnd line).isInfix
  rw [stripLine_none_of_program (h.of_isInfix hbody).ofBody,
    unexport_of_not_startsExport h.startsExport]

theorem leaves_of_withoutModuleWords (free : Option RootName) (h : ∀ l ∈ ls, WithoutModuleWords l) :
    Leaves free none ls ls.flatten := by
  induction ls with
  | nil => exact .nil
  | cons line ls ih =>
    have hline := (h line List.mem_cons_self).stripLine free
    exact .cons_of_eq hline (ih fun l hl => h l (List.mem_cons_of_mem line hl))

theorem isInfix_of_mem_lines (h : line ∈ lines text) : line <:+: text := by
  obtain ⟨before, after, hsplit⟩ := List.append_of_mem h
  have hflatten := flatten_lines text
  rw [hsplit, List.flatten_append, List.flatten_cons, ← List.append_assoc] at hflatten
  exact ⟨before.flatten, after.flatten, hflatten⟩

theorem WithoutModuleWords.leaves (free : Option RootName) (h : WithoutModuleWords text) :
    Leaves free none (lines text) text := by
  have hleaves := leaves_of_withoutModuleWords free fun l hl =>
    h.of_isInfix (isInfix_of_mem_lines hl)
  rwa [flatten_lines] at hleaves

section

variable {last : Line} (hopens : ∀ l ∈ ls, ∀ kind, LineRole.ofBody l.body ≠ .opening kind)
  (hlast : LineRole.ofBody last.body = .program) (hkept : unexport free last ≠ [])

include hopens hlast hkept

theorem leaves_of_closed : ∃ text, Leaves free none (ls ++ [last]) text ∧ text ≠ [] := by
  induction ls with
  | nil =>
    have hleaves : Leaves free none [last] _ :=
      .cons_of_eq (stripLine_none_of_program hlast) .nil
    exact ⟨_, hleaves, by simpa using hkept⟩
  | cons line ls ih =>
    obtain ⟨text, hleaves, hne⟩ := ih fun l hl => hopens l (List.mem_cons_of_mem line hl)
    have hblock : (stripLine free none line).block = none :=
      block_stripOutside free (hopens line List.mem_cons_self)
    rw [← hblock] at hleaves
    exact ⟨_, .cons hleaves, List.append_ne_nil_of_right_ne_nil _ hne⟩

theorem leaves_of_open (hnames : ModuleSyntax.bindingNames.accepts last.body = false)
    {b : OpenBlock} (hheld : b.held.flatten ≠ []) :
    ∃ text, Leaves free (some b) (ls ++ [last]) text ∧
      (text = [] ↔ (∀ l ∈ ls, ModuleSyntax.bindingNames.accepts l.body) ∧
        b.kind.closing.accepts last.body) := by
  -- The block grows with each line of names; any other line settles that the last one stays.
  induction ls generalizing b with
  | nil =>
    cases hclosing : b.kind.closing.accepts last.body with
    | true =>
      have hstrip : stripLine free (Option.some b) last = ⟨[], none⟩ := by
        simp [stripLine, OpenBlock.strip, hclosing]
      exact ⟨_, .cons_of_eq hstrip .nil, by simp⟩
    | false =>
      have hstrip : stripLine free (Option.some b) last =
          ⟨b.held.flatten ++ unexport free last, none⟩ := by
        simp [stripLine, OpenBlock.strip, hclosing, hnames, stripOutside, hlast]
      exact ⟨_, .cons_of_eq hstrip .nil, by simp [hheld]⟩
  | cons line ls ih =>
    have hrest : ∀ l ∈ ls, ∀ kind, LineRole.ofBody l.body ≠ .opening kind :=
      fun l hl => hopens l (List.mem_cons_of_mem line hl)
    obtain ⟨rest, hleaves, hne⟩ := leaves_of_closed hrest hlast hkept
    cases hclosing : b.kind.closing.accepts line.body with
    | true =>
      have hstrip : stripLine free (Option.some b) line = ⟨[], none⟩ := by
        simp [stripLine, OpenBlock.strip, hclosing]
      have hnot : ModuleSyntax.bindingNames.accepts line.body = false :=
        not_bindingNames_of_closing hclosing
      exact ⟨_, .cons_of_eq hstrip hleaves, by simp [hne, hnot]⟩
    | false =>
      cases hbinding : ModuleSyntax.bindingNames.accepts line.body with
      | true =>
        have hstrip : stripLine free (Option.some b) line =
            ⟨[], Option.some { b with held := b.held ++ [line] }⟩ := by
          simp [stripLine, OpenBlock.strip, hclosing, hbinding]
        obtain ⟨text, hopen, hiff⟩ := ih hrest
          (by simp [hheld] : ({ b with held := b.held ++ [line] } : OpenBlock).held.flatten ≠ [])
        exact ⟨_, .cons_of_eq hstrip hopen, by simp [hbinding, hiff]⟩
      | false =>
        have hstrip : stripLine free (Option.some b) line =
            ⟨b.held.flatten ++ (stripOutside free line).text, none⟩ := by
          have hblock := block_stripOutside free (hopens line List.mem_cons_self)
          simp [stripLine, OpenBlock.strip, hclosing, hbinding, hblock]
        exact ⟨_, .cons_of_eq hstrip hleaves, by simp [hheld, hbinding]⟩

theorem leaves_of_first (hnames : ModuleSyntax.bindingNames.accepts last.body = false)
    {first : Line} (hne : first ≠ []) :
    ∃ text, Leaves free none (first :: (ls ++ [last])) text ∧
      (text = [] ↔ ∃ kind, LineRole.ofBody first.body = .opening kind ∧
        (∀ l ∈ ls, ModuleSyntax.bindingNames.accepts l.body) ∧
        kind.closing.accepts last.body) := by
  obtain ⟨rest, hleaves, hrest⟩ := leaves_of_closed hopens hlast hkept
  cases hrole : LineRole.ofBody first.body with
  | declaration =>
    exact ⟨_, .cons_of_eq (stripLine_none_of_declaration hrole) hleaves, by simp [hrest]⟩
  | program =>
    exact ⟨_, .cons_of_eq (stripLine_none_of_program hrole) hleaves, by simp [hrest]⟩
  | opening kind =>
    have hheld : (⟨kind, [first]⟩ : OpenBlock).held.flatten ≠ [] := by simpa using hne
    obtain ⟨text, hopen, hiff⟩ := leaves_of_open hopens hlast hkept hnames hheld
    exact ⟨_, .cons_of_eq (stripLine_none_of_opening hrole) hopen, by simp [hiff]⟩

end

end LivePreview.Source
