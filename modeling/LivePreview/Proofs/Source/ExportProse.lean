import LivePreview.Proofs.Source.LineImage

namespace LivePreview.Source

open LivePreview.Text

open LivePreview.Text.Pattern (Matches blanks word char matches_seq_iff matches_word_iff
  matches_symbol_iff)

def declarationWords : List String :=
  ["default", "const", "let", "var", "function", "class", "async", "interface", "type", "enum",
    "namespace", "module", "declare", "abstract"]

def IsExportProse (line : Line) : Prop :=
  firstWord line = Identifier.exportWord.chars ∧
    dropBlanks (afterFirstWord line) ≠ [] ∧
    (∀ word ∈ declarationWords, firstWord (afterFirstWord line) ≠ word.toList) ∧
    (dropBlanks (afterFirstWord line)).head? ∉ [some '\x7b', some '*']

instance (line : Line) : Decidable (IsExportProse line) :=
  inferInstanceAs (Decidable (_ ∧ _ ∧ _ ∧ _))

variable {b n w u v rest : List Char} {line : Line} {p q : Pattern} {c : Char}

theorem firstWord_append_afterFirstWord (line : Line) :
    firstWord line ++ afterFirstWord line = dropBlanks line :=
  List.takeWhile_append_dropWhile

theorem dropBlanks_of_isPrefix (hb : ∀ c ∈ b, isBlank c) (hne : n ≠ [])
    (hn : ∀ c ∈ n, isNameChar c) (h : b ++ (n ++ w) <+: line) :
    ∃ more, dropBlanks line = n ++ (w ++ more) := by
  obtain ⟨more, rfl⟩ := h
  refine ⟨more, ?_⟩
  rw [List.append_assoc, List.append_assoc, dropBlanks_append_of_all hb,
    dropBlanks_append_name hne hn]

theorem isPrefix_afterFirstWord (hword : firstWord line = Identifier.exportWord.chars)
    (h : Matches (.seq blanks (.seq (word "export") q)) u) (hu : u <+: line) :
    ∃ v, Matches q v ∧ v <+: afterFirstWord line := by
  obtain ⟨b, v, rfl, hb, hv⟩ := matches_seq_iff.1 h
  obtain ⟨n, w, rfl, hn, hw⟩ := matches_seq_iff.1 hv
  obtain rfl : n = Identifier.exportWord.chars := matches_word_iff.1 hn
  obtain ⟨more, hline⟩ := dropBlanks_of_isPrefix (matches_blanks hb)
    Identifier.exportWord.nonempty Identifier.exportWord.isName hu
  rw [← firstWord_append_afterFirstWord, hword] at hline
  exact ⟨w, hw, more, (List.append_cancel_left hline).symm⟩

def opensWith (c : Char) : Pattern → Bool
  | .symbol s => s == .char c
  | .seq p _ => opensWith c p
  | _ => false

theorem head?_of_opensWith (hp : opensWith c p) (h : Matches p u) : u.head? = some c := by
  induction h with
  | @symbol s d hs =>
    obtain rfl : s = .char c := eq_of_beq hp
    rw [eq_of_beq hs]
    rfl
  | seq _ _ ihu _ => rw [List.head?_append, ihu hp, Option.some_or]
  | _ => cases hp

theorem head?_of_mark (hc : isBlank c = false) (hq : opensWith c q)
    (h : Matches (.seq blanks q) v) (hv : v <+: rest) : (dropBlanks rest).head? = some c := by
  obtain ⟨b, w, rfl, hb, hw⟩ := matches_seq_iff.1 h
  obtain ⟨d, tail, rfl⟩ : ∃ d tail, w = d :: tail :=
    List.exists_cons_of_ne_nil (by
      rintro rfl
      cases head?_of_opensWith hq hw)
  obtain rfl : d = c := Option.some.inj (head?_of_opensWith hq hw)
  obtain ⟨more, rfl⟩ := hv
  rw [List.append_assoc, dropBlanks_append_of_all (matches_blanks hb)]
  simp [dropBlanks, hc]

theorem exists_dropBlanks_of_beginsWith {name : Identifier} (hp : beginsWith name p)
    (h : Matches p u) (hu : u <+: line) : ∃ more, dropBlanks line = name.chars ++ more := by
  unfold beginsWith at hp
  split at hp
  · rename_i first second q
    simp only [Bool.and_eq_true, beq_iff_eq] at hp
    obtain ⟨⟨rfl, rfl⟩, -⟩ := hp
    obtain ⟨b, v, rfl, hb, hv⟩ := matches_seq_iff.1 h
    obtain ⟨n, w, rfl, hn, -⟩ := matches_seq_iff.1 hv
    rw [matches_word_iff, String.toList_ofList] at hn
    subst hn
    obtain ⟨more, hline⟩ := dropBlanks_of_isPrefix (matches_blanks hb) name.nonempty name.isName hu
    exact ⟨w ++ more, hline⟩
  · cases hp

theorem firstWord_default {g : List Char} (hb : ∀ c ∈ b, isBlank c) (hne : g ≠ [])
    (hg : ∀ c ∈ g, isBlank c) (w : List Char) :
    firstWord (b ++ ("default".toList ++ (g ++ w))) = "default".toList := by
  have hletters : "default".toList.all isNameChar := by decide
  have hends : NameEnds (g ++ w) := by
    obtain ⟨d, tail, rfl⟩ := List.exists_cons_of_ne_nil hne
    rintro c rest heq
    obtain ⟨rfl, -⟩ := List.cons.inj heq
    exact not_isNameChar_of_isBlank (hg _ List.mem_cons_self)
  exact firstWord_append hb (by decide) (List.all_eq_true.1 hletters) hends

theorem firstWord_of_default
    (h : Matches (.seq Pattern.gap (.seq (word "default") (.seq Pattern.gap q))) v)
    (hv : v <+: rest) : firstWord rest = "default".toList := by
  obtain ⟨b, w, rfl, hb, hw⟩ := matches_seq_iff.1 h
  obtain ⟨n, x, rfl, hn, hx⟩ := matches_seq_iff.1 hw
  obtain ⟨g, y, rfl, hg, -⟩ := matches_seq_iff.1 hx
  obtain rfl : n = "default".toList := matches_word_iff.1 hn
  obtain ⟨more, rfl⟩ := hv
  obtain ⟨hne, hblanks⟩ := matches_gap hg
  have hfirst := firstWord_default (matches_gap hb).2 hne hblanks (y ++ more)
  simpa only [List.append_assoc] using hfirst

theorem eq_exportedName (hword : firstWord line = Identifier.exportWord.chars)
    (hmark : (dropBlanks (afterFirstWord line)).head? ∉ [some '\x7b', some '*'])
    (hp : p ∈ declaring ++ opening) (hu : u <+: line) (h : Matches p u) :
    p = ModuleSyntax.exportedName := by
  have hall : (declaring ++ opening).all
      fun p => beginsWith .importWord p || exporting.contains p := by decide
  have hnot : ∀ c, isBlank c = false → c ∈ ['\x7b', '*'] → ∀ q v, opensWith c q →
      Matches (.seq blanks q) v → ¬ v <+: afterFirstWord line := by
    intro c hblank hc q v hq hv hprefix
    rw [head?_of_mark hblank hq hv hprefix] at hmark
    exact hmark (by simpa using hc)
  rcases Bool.or_eq_true_iff.1 (List.all_eq_true.1 hall p hp) with himport | hexport
  · obtain ⟨more, hline⟩ := exists_dropBlanks_of_beginsWith himport h hu
    rw [← firstWord_append_afterFirstWord, hword] at hline
    exact absurd (List.cons.inj hline).1 (by decide)
  · rw [List.contains_iff_mem] at hexport
    simp only [exporting, List.mem_cons, List.not_mem_nil, or_false] at hexport
    rcases hexport with rfl | rfl | rfl | rfl
    · rfl
    · obtain ⟨v, hq, hv⟩ := isPrefix_afterFirstWord hword h hu
      exact absurd hv (hnot '\x7b' (by decide) (by decide) _ v (by decide) hq)
    · obtain ⟨v, hq, hv⟩ := isPrefix_afterFirstWord hword h hu
      exact absurd hv (hnot '*' (by decide) (by decide) _ v (by decide) hq)
    · obtain ⟨v, hq, hv⟩ := isPrefix_afterFirstWord hword h hu
      exact absurd hv (hnot '\x7b' (by decide) (by decide) _ v (by decide) hq)

theorem ofBody_of_exportLine (hword : firstWord line = Identifier.exportWord.chars)
    (hmark : (dropBlanks (afterFirstWord line)).head? ∉ [some '\x7b', some '*'])
    (hname : ¬ Matches ModuleSyntax.exportedName line.body) :
    LineRole.ofBody line.body = .program := by
  have hbody : line.body <+: line := isPrefix_dropEndWhile isLineEnd line
  have hnot : ∀ p ∈ declaring ++ opening, ¬ Matches p line.body := by
    intro p hp hmatches
    exact hname (eq_exportedName hword hmark hp hbody hmatches ▸ hmatches)
  rw [ofBody_eq_program_iff, ← Bool.not_eq_true, isDeclaration_iff]
  constructor
  · rintro ⟨p, hp, hmatches⟩
    exact hnot p (List.mem_append_left _ hp) hmatches
  · intro kind hrole
    obtain ⟨p, hp, hmatches⟩ := matches_of_opening hrole
    exact hnot p (List.mem_append_right _ hp) hmatches

namespace IsExportProse

theorem ofBody (h : IsExportProse line) : LineRole.ofBody line.body = .program := by
  obtain ⟨hword, -, hundeclared, hunmarked⟩ := h
  refine ofBody_of_exportLine hword hunmarked fun hmatches => ?_
  have hbody : line.body <+: line := isPrefix_dropEndWhile isLineEnd line
  obtain ⟨v, hq, hv⟩ := isPrefix_afterFirstWord hword hmatches hbody
  exact hundeclared "default" (by decide) (firstWord_of_default hq hv)

theorem dropBlanks_eq (h : IsExportProse line) :
    dropBlanks line = "export".toList ++ afterFirstWord line := by
  rw [← firstWord_append_afterFirstWord, h.1]
  rfl

theorem startsExport_eq (h : IsExportProse line) :
    startsExport line = startsBlank (afterFirstWord line) := by
  rw [startsExport, h.dropBlanks_eq, afterWord_append]
  cases startsBlank (afterFirstWord line) <;> rfl

theorem unexport_eq (free : Option RootName) (h : IsExportProse line)
    (hblank : startsBlank (afterFirstWord line)) :
    unexport free line = line.takeWhile isBlank ++ dropBlanks (afterFirstWord line) := by
  have hexported : afterWord "export" (dropBlanks line)
      = some (dropBlanks (afterFirstWord line)) := by
    rw [h.dropBlanks_eq, afterWord_append, if_pos hblank]
  have hplain : afterWord "default" (dropBlanks (afterFirstWord line)) = none := by
    cases hdefault : afterWord "default" (dropBlanks (afterFirstWord line)) with
    | none => rfl
    | some value =>
      obtain ⟨gap, hsplit, hne, hgap⟩ := afterWord_eq_some hdefault
      have hrest := takeWhile_append_dropBlanks (afterFirstWord line)
      rw [hsplit, List.append_assoc] at hrest
      have hindent : ∀ c ∈ (afterFirstWord line).takeWhile isBlank, isBlank c :=
        fun _ => isBlank_of_mem_takeWhile
      refine absurd ?_ (h.2.2.1 "default" (by decide))
      rw [← hrest]
      exact firstWord_default hindent hne hgap value
  rw [unexport_of_afterWord hexported, exportedText, hplain]

end IsExportProse

/-- A line of prose that begins with the word `export`, outside every list, does not touch what the
other lines leave. It stays exactly where no blank follows the word; otherwise it loses the word and
the blanks behind it. -/
theorem exportProse_kept_iff (source : String) (k : Nat) (line : Line)
    (hline : (lines source.toList)[k]? = some line) (hprose : IsExportProse line)
    (hoff : ¬ InWholeList (lines source.toList) k ∧ ¬ InBrokenList (lines source.toList) k) :
    let ls := lines source.toList
    let free := freeRootName source.toList
    let rest := afterFirstWord line
    ∃ text, (withoutModuleSyntax source).toList =
        stripLines free none (ls.take k) ++ text ++ stripLines free none (ls.drop (k + 1)) ∧
      (text = line ↔ startsBlank rest = false) ∧
      (startsBlank rest → text = line.takeWhile isBlank ++ dropBlanks rest) := by
  intro ls free rest
  have hsplit := stripLines_split free hline hprose.ofBody hoff
  refine ⟨unexport free line, ?_, ?_, hprose.unexport_eq free⟩
  · rw [withoutModuleSyntax, String.toList_ofList]
    exact hsplit
  · have hone : OneLine line := (cut_lines source.toList).oneLine (List.mem_of_getElem? hline)
    rw [unexport_eq_self_iff free hone, hprose.startsExport_eq]

def exportMenu : String :=
  "const App = () => (\n  <p>\n    export: CSV or JSON\n  </p>\n);\n"

theorem exportMenu_keeps_prose :
    let ls := lines exportMenu.toList
    let free := freeRootName exportMenu.toList
    let line := "    export: CSV or JSON\n".toList
    IsExportProse line ∧ (¬ InWholeList ls 2 ∧ ¬ InBrokenList ls 2) ∧
      (withoutModuleSyntax exportMenu).toList =
        stripLines free none (ls.take 2) ++ line ++ stripLines free none (ls.drop 3) := by
  intro ls free line
  have hprose : IsExportProse line := by decide +kernel
  have hoff : ¬ InWholeList ls 2 ∧ ¬ InBrokenList ls 2 :=
    not_listed_of_no_opener (by decide +kernel)
  obtain ⟨text, hsplit, hsame, -⟩ := exportProse_kept_iff exportMenu 2 line (by decide +kernel)
    hprose hoff
  obtain rfl := hsame.2 (by decide +kernel)
  exact ⟨hprose, hoff, hsplit⟩

def exportAdvice : String :=
  "const App = () => (\n  <p>\n    export your data below\n  </p>\n);\n"

theorem exportAdvice_loses_prose :
    let ls := lines exportAdvice.toList
    let line := "    export your data below\n".toList
    ls[2]? = some line ∧ IsExportProse line ∧ (¬ InWholeList ls 2 ∧ ¬ InBrokenList ls 2) ∧
      ¬ line <:+: (withoutModuleSyntax exportAdvice).toList := by
  intro ls line
  have hoff : ¬ InWholeList ls 2 ∧ ¬ InBrokenList ls 2 :=
    not_listed_of_no_opener (by decide +kernel)
  refine ⟨by decide +kernel, by decide +kernel, hoff, ?_⟩
  rw [withoutModuleSyntax, String.toList_ofList]
  decide +kernel

end LivePreview.Source
