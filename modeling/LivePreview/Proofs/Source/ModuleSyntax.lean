import LivePreview.Source.ModuleSyntax
import LivePreview.Proofs.Text.Pattern

namespace LivePreview.Source

open LivePreview.Text
open LivePreview.Text.Pattern

theorem ofBody_eq_declaration_iff {body : List Char} :
    LineRole.ofBody body = .declaration ↔ isDeclaration body := by
  unfold LineRole.ofBody
  split
  · rename_i hdeclaration
    exact ⟨fun _ => hdeclaration, fun _ => rfl⟩
  · rename_i hother
    refine ⟨fun h => ?_, fun h => absurd h hother⟩
    split at h
    · cases h
    · split at h
      · cases h
      · cases h

theorem not_isDeclaration_of_ofBody_ne {body : List Char}
    (h : LineRole.ofBody body ≠ .declaration) : isDeclaration body = false := by
  cases hdeclaration : isDeclaration body with
  | false => rfl
  | true => exact absurd (ofBody_eq_declaration_iff.2 hdeclaration) h

theorem not_bindingNames_of_opening {body : List Char} {kind : BlockKind}
    (h : LineRole.ofBody body = .opening kind) :
    ModuleSyntax.bindingNames.accepts body = false := by
  have hbinding : ModuleSyntax.bindingNames.avoids ['\x7b'] := by decide
  have himport : ModuleSyntax.importOpening.requires ['\x7b'] := by decide
  have hexport : ModuleSyntax.exportOpening.requires ['\x7b'] := by decide
  cases haccepts : ModuleSyntax.bindingNames.accepts body with
  | false => rfl
  | true =>
    have hnotImport := not_accepts_of_requires hbinding himport haccepts
    have hnotExport := not_accepts_of_requires hbinding hexport haccepts
    unfold LineRole.ofBody at h
    rw [hnotImport, hnotExport] at h
    split at h
    · cases h
    · cases h

def fromSecondWord (cs : List Char) : List Char :=
  dropBlanks ((dropBlanks cs).dropWhile isNameChar)

variable {b n g w : List Char}

theorem dropBlanks_append_of_all {u v : List Char} (h : ∀ c ∈ u, isBlank c) :
    dropBlanks (u ++ v) = dropBlanks v :=
  List.dropWhile_append_of_pos h

theorem dropBlanks_append_name (hne : n ≠ []) (hn : ∀ c ∈ n, isNameChar c) :
    dropBlanks (n ++ w) = n ++ w := by
  obtain ⟨c, cs, rfl⟩ := List.exists_cons_of_ne_nil hne
  have hname : isNameChar c := hn c (by simp)
  have hblank : isBlank c = false := by
    cases hc : isBlank c with
    | false => rfl
    | true =>
      rw [not_isNameChar_of_isBlank hc] at hname
      cases hname
  simp [dropBlanks, hblank]

theorem fromSecondWord_append (hb : ∀ c ∈ b, isBlank c) (hne : n ≠ [])
    (hn : ∀ c ∈ n, isNameChar c) :
    fromSecondWord (b ++ n ++ w) = dropBlanks (w.dropWhile isNameChar) := by
  rw [fromSecondWord, List.append_assoc, dropBlanks_append_of_all hb,
    dropBlanks_append_name hne hn, List.dropWhile_append_of_pos hn]

theorem fromSecondWord_gap (hb : ∀ c ∈ b, isBlank c) (hne : n ≠ []) (hn : ∀ c ∈ n, isNameChar c)
    (hg : ∀ c ∈ g, isBlank c) (hgap : g ≠ []) :
    fromSecondWord (b ++ n ++ (g ++ w)) = dropBlanks w := by
  obtain ⟨c, cs, rfl⟩ := List.exists_cons_of_ne_nil hgap
  have hc : isNameChar c = false := not_isNameChar_of_isBlank (hg c (by simp))
  rw [fromSecondWord_append hb hne hn, List.cons_append, List.dropWhile_cons_of_neg (by simp [hc]),
    ← List.cons_append, dropBlanks_append_of_all hg]

theorem matches_blanks {u : List Char} (h : Matches blanks u) : ∀ c ∈ u, isBlank c :=
  all_of_matches_many h

theorem matches_gap {u : List Char} (h : Matches gap u) : u ≠ [] ∧ ∀ c ∈ u, isBlank c := by
  obtain ⟨v, w, rfl, hv, hw⟩ := matches_seq_iff.1 h
  obtain ⟨c, hc, rfl⟩ := matches_symbol_iff.1 hv
  refine ⟨by simp, fun d hd => ?_⟩
  rcases List.mem_append.1 hd with hd | hd
  · exact List.mem_singleton.1 hd ▸ hc
  · exact all_of_matches_many hw d hd

theorem matches_name {u : List Char} (h : Matches name u) : u ≠ [] ∧ ∀ c ∈ u, isNameChar c := by
  obtain ⟨v, w, rfl, hv, hw⟩ := matches_seq_iff.1 h
  obtain ⟨c, hc, rfl⟩ := matches_symbol_iff.1 hv
  refine ⟨by simp, fun d hd => ?_⟩
  rcases List.mem_append.1 hd with hd | hd
  · exact List.mem_singleton.1 hd ▸ hc
  · exact all_of_matches_many hw d hd

theorem fromSecondWord_of_exportedName {u : List Char}
    (h : Matches ModuleSyntax.exportedName u) : ∃ rest, fromSecondWord u = 'd' :: rest := by
  obtain ⟨b, v, rfl, hb, h⟩ := matches_seq_iff.1 h
  obtain ⟨n, v, rfl, hn, h⟩ := matches_seq_iff.1 h
  obtain ⟨g, v, rfl, hg, h⟩ := matches_seq_iff.1 h
  obtain ⟨d, v, rfl, hd, h⟩ := matches_seq_iff.1 h
  rw [matches_word_iff] at hn hd
  have hgap := matches_gap hg
  have hletters : "export".toList.all isNameChar := by decide
  have hexport : ∀ c ∈ n, isNameChar c := by
    rw [hn]
    exact List.all_eq_true.1 hletters
  have hne : n ≠ [] := by
    rw [hn]
    decide
  rw [← List.append_assoc, fromSecondWord_gap (matches_blanks hb) hne hexport hgap.2 hgap.1, hd]
  exact ⟨_, rfl⟩

theorem eq_nil_of_matches_many {p : Pattern} {cs u : List Char} (hp : p.requires cs)
    (hu : ∀ c ∈ u, c ∉ cs) (h : Matches (.many p) u) : u = [] := by
  cases u with
  | nil => rfl
  | cons c v =>
    obtain ⟨first, rest, rfl, hfirst, -⟩ := matches_many_cons_iff.1 h
    obtain ⟨d, hd, hmem⟩ := exists_mem_of_requires hfirst hp
    have hd : d ∈ c :: (first ++ rest) := by
      rw [← List.cons_append]
      exact List.mem_append_left _ hd
    exact absurd hmem (hu d hd)

theorem dropBlanks_of_all {u : List Char} (h : ∀ c ∈ u, isBlank c) : dropBlanks u = [] := by
  have happend := dropBlanks_append_of_all (v := []) h
  rwa [List.append_nil] at happend

theorem fromSecondWord_of_rename {r : List Char} (hb : ∀ c ∈ b, isBlank c)
    (h : Matches ModuleSyntax.rename r) :
    fromSecondWord (b ++ r) = [] ∨ ∃ rest, fromSecondWord (b ++ r) = 'a' :: rest := by
  obtain ⟨n, v, rfl, hn, h⟩ := matches_seq_iff.1 h
  obtain ⟨m, v, rfl, hm, h⟩ := matches_seq_iff.1 h
  obtain ⟨e, v, rfl, he, hnil⟩ := matches_seq_iff.1 h
  obtain rfl : v = [] := by
    cases hnil
    rfl
  have hname := matches_name hn
  have hend := matches_blanks he
  rw [← List.append_assoc]
  rcases matches_either_iff.1 hm with hm | hm
  · obtain ⟨g, v, rfl, hg, hm⟩ := matches_seq_iff.1 hm
    obtain ⟨a, v, rfl, ha, hm⟩ := matches_seq_iff.1 hm
    have hgap := matches_gap hg
    right
    rw [List.append_assoc g, fromSecondWord_gap hb hname.1 hname.2 hgap.2 hgap.1,
      matches_word_iff.1 ha]
    exact ⟨_, rfl⟩
  · obtain rfl : m = [] := by
      cases hm
      rfl
    left
    rw [List.nil_append, List.append_nil]
    cases e with
    | nil =>
      rw [fromSecondWord_append hb hname.1 hname.2]
      rfl
    | cons c cs =>
      have hgap := fromSecondWord_gap (w := []) hb hname.1 hname.2 hend (List.cons_ne_nil c cs)
      rwa [List.append_nil] at hgap

theorem fromSecondWord_of_bindingNames {u : List Char} (hcomma : ',' ∉ u)
    (h : Matches ModuleSyntax.bindingNames u) :
    fromSecondWord u = [] ∨ ∃ rest, fromSecondWord u = 'a' :: rest := by
  obtain ⟨b, v, rfl, hb, h⟩ := matches_seq_iff.1 h
  obtain ⟨items, v, rfl, hitems, h⟩ := matches_seq_iff.1 h
  obtain ⟨r, v, rfl, hr, hnil⟩ := matches_seq_iff.1 h
  obtain rfl : v = [] := by
    cases hnil
    rfl
  have hblank := matches_blanks hb
  obtain rfl : items = [] := by
    have hcommas : ∀ c ∈ items, c ∉ [','] := by
      intro c hc hmem
      obtain rfl := List.mem_singleton.1 hmem
      exact hcomma (by simp [hc])
    exact eq_nil_of_matches_many (by decide) hcommas hitems
  rw [List.nil_append, List.append_nil]
  rcases matches_either_iff.1 hr with hr | hr
  · exact fromSecondWord_of_rename hblank hr
  · obtain rfl : r = [] := by
      cases hr
      rfl
    left
    rw [List.append_nil, fromSecondWord, dropBlanks_of_all hblank]
    rfl

theorem not_exportedName_of_bindingNames {body : List Char}
    (h : ModuleSyntax.bindingNames.accepts body) :
    ModuleSyntax.exportedName.accepts body = false := by
  cases haccepts : ModuleSyntax.exportedName.accepts body with
  | false => rfl
  | true =>
    have hmatches := accepts_iff.1 haccepts
    have havoids : ModuleSyntax.exportedName.avoids [','] := by decide
    have hcomma : ',' ∉ body := fun hc => not_mem_of_avoids hmatches havoids ',' hc (by simp)
    obtain ⟨rest, hd⟩ := fromSecondWord_of_exportedName hmatches
    rcases fromSecondWord_of_bindingNames hcomma (accepts_iff.1 h) with hnil | ⟨_, ha⟩
    · rw [hd] at hnil
      cases hnil
    · rw [hd] at ha
      cases ha

theorem not_isDeclaration_of_bindingNames {body : List Char}
    (h : ModuleSyntax.bindingNames.accepts body) : isDeclaration body = false := by
  have hquotes : ModuleSyntax.bindingNames.avoids ['\'', '"'] := by decide
  have hbrace : ModuleSyntax.bindingNames.avoids ['\x7b'] := by decide
  have himport : ModuleSyntax.importDeclaration.requires ['\'', '"'] := by decide
  have hsideEffect : ModuleSyntax.sideEffectImport.requires ['\'', '"'] := by decide
  have hnames : ModuleSyntax.exportedNames.requires ['\x7b'] := by decide
  have hall : ModuleSyntax.exportAll.requires ['\'', '"'] := by decide
  rw [isDeclaration, not_accepts_of_requires hquotes himport h,
    not_accepts_of_requires hquotes hsideEffect h, not_exportedName_of_bindingNames h,
    not_accepts_of_requires hbrace hnames h, not_accepts_of_requires hquotes hall h]
  rfl

end LivePreview.Source
