import LivePreview.Proofs.Source.ModuleSyntax
import LivePreview.Proofs.Source.Strip

/-!
The texts that a second pass leaves alone. A classic script is not always one of them: a list that
stays because a line interrupted it may be whole once that line is gone, and a line that lost one
`export` may start with another.
-/

namespace LivePreview.Source

open LivePreview.Text

def ListOpen (kind : BlockKind) (before : List Line) : Prop :=
  ∃ earlier opening names, before = earlier ++ opening :: names ∧
    LineRole.ofBody opening.body = .opening kind ∧
    ∀ line ∈ names, ModuleSyntax.bindingNames.accepts line.body

structure Stays (before : List Line) (line : Line) : Prop where
  notDeclaration : isDeclaration line.body = false
  notClosing : ∀ kind, ListOpen kind before → kind.closing.accepts line.body = false
  exportHeld : LineRole.ofBody line.body = .program → startsExport line →
    ModuleSyntax.bindingNames.accepts line.body ∧ ∃ kind, ListOpen kind before

/-- No line is a declaration, no binding list is whole, and only names in an unfinished list start
with the word `export`. -/
def Settled (ls : List Line) : Prop :=
  ∀ before line after, ls = before ++ line :: after → Stays before line

variable {free : Option RootName} {block : Option OpenBlock} {before ls : List Line} {line : Line}
  {kind : BlockKind}

theorem not_listOpen_nil : ¬ ListOpen kind [] := by
  rintro ⟨earlier, opening, names, hnil, -⟩
  exact absurd hnil.symm (List.append_ne_nil_of_right_ne_nil _ (List.cons_ne_nil _ _))

theorem listOpen_append_singleton_iff :
    ListOpen kind (before ++ [line]) ↔
      LineRole.ofBody line.body = .opening kind ∨
        ListOpen kind before ∧ ModuleSyntax.bindingNames.accepts line.body := by
  constructor
  · rintro ⟨earlier, opening, names, hsplit, hopening, hnames⟩
    rcases List.eq_nil_or_concat names with rfl | ⟨more, last, rfl⟩
    · obtain ⟨-, hline⟩ := List.append_inj' hsplit rfl
      obtain rfl := (List.cons.inj hline).1
      exact .inl hopening
    · rw [List.concat_eq_append, ← List.cons_append, ← List.append_assoc] at hsplit
      obtain ⟨hbefore, hline⟩ := List.append_inj' hsplit rfl
      obtain rfl := (List.cons.inj hline).1
      have hmore : ∀ l ∈ more, ModuleSyntax.bindingNames.accepts l.body :=
        fun l hl => hnames l (by simp [hl])
      exact .inr ⟨⟨earlier, opening, more, hbefore, hopening, hmore⟩, hnames line (by simp)⟩
  · rintro (hopening | ⟨⟨earlier, opening, names, rfl, hopening, hnames⟩, hline⟩)
    · exact ⟨before, line, [], rfl, hopening, by simp⟩
    · refine ⟨earlier, opening, names ++ [line], by simp, hopening, fun l hl => ?_⟩
      rcases List.mem_append.1 hl with hl | hl
      · exact hnames l hl
      · exact List.mem_singleton.1 hl ▸ hline

def Follows (before : List Line) (block : Option OpenBlock) : Prop :=
  ∀ kind, ListOpen kind before ↔ ∃ b, block = some b ∧ b.kind = kind

theorem follows_nil : Follows [] none := by
  intro kind
  constructor
  · exact fun h => absurd h not_listOpen_nil
  · rintro ⟨_, h, -⟩
    cases h

theorem listOpen_of_follows {b : OpenBlock} (h : Follows before block) (hopen : block = some b) :
    ListOpen b.kind before :=
  (h b.kind).2 ⟨b, hopen, rfl⟩

theorem not_accepts_of_listOpen (h : Follows before block)
    (houtside : ∀ b, block = some b → b.kind.closing.accepts line.body = false ∧
      ModuleSyntax.bindingNames.accepts line.body = false)
    (hopen : ListOpen kind before) :
    kind.closing.accepts line.body = false ∧
      ModuleSyntax.bindingNames.accepts line.body = false := by
  obtain ⟨b, hb, rfl⟩ := (h kind).1 hopen
  exact houtside b hb

theorem stays_of_keeps (hone : OneLine line) (hne : line ≠ []) (h : Follows before block)
    (hkeeps : Keeps free block line) : Stays before line := by
  have hstrips := strips_stripLine free block line
  unfold Keeps at hkeeps
  generalize stripLine free block line = out at hstrips hkeeps
  cases hstrips with
  | closed =>
    have hnil := List.append_eq_nil_iff.1 hkeeps.symm
    exact absurd hnil.2 hne
  | held hopen hclosing hbinding =>
    refine ⟨not_isDeclaration_of_bindingNames hbinding, fun kind hkind => ?_,
      fun _ _ => ⟨hbinding, _, listOpen_of_follows h hopen⟩⟩
    obtain ⟨b', hb', rfl⟩ := (h kind).1 hkind
    obtain rfl := Option.some.inj (hopen.symm.trans hb')
    exact hclosing
  | dropped =>
    exact absurd (List.append_cancel_left hkeeps).symm hne
  | opened hrole hclosing =>
    have hdeclaration : isDeclaration line.body = false :=
      not_isDeclaration_of_ofBody_ne (by simp [hrole])
    refine ⟨hdeclaration, fun kind hkind => ?_, fun hprogram => ?_⟩
    · obtain ⟨b, hb, rfl⟩ := (h kind).1 hkind
      exact hclosing b hb
    · rw [hrole] at hprogram
      cases hprogram
  | kept hrole houtside =>
    rw [heldText_none, List.append_nil] at hkeeps
    have hsame := (unexport_eq_self_iff free hone).1 (List.append_cancel_left hkeeps)
    have hdeclaration : isDeclaration line.body = false :=
      not_isDeclaration_of_ofBody_ne (by simp [hrole])
    refine ⟨hdeclaration, fun kind hkind => (not_accepts_of_listOpen h houtside hkind).1,
      fun _ hexport => ?_⟩
    rw [hsame] at hexport
    cases hexport

theorem keeps_of_stays (h : Follows before block) (hstays : Stays before line) :
    Keeps free block line := by
  have hstrips := strips_stripLine free block line
  unfold Keeps
  generalize stripLine free block line = out at hstrips ⊢
  cases hstrips with
  | closed hopen hclosing =>
    rw [hstays.notClosing _ (listOpen_of_follows h hopen)] at hclosing
    cases hclosing
  | held hopen => rw [heldText_held, ← hopen, List.nil_append]
  | dropped hdeclaration =>
    rw [hstays.notDeclaration] at hdeclaration
    cases hdeclaration
  | opened => rw [heldText_opened]
  | kept hrole houtside =>
    have hexport : startsExport line = false := by
      cases hstarts : startsExport line with
      | false => rfl
      | true =>
        obtain ⟨hbinding, kind, hopen⟩ := hstays.exportHeld hrole hstarts
        rw [(not_accepts_of_listOpen h houtside hopen).2] at hbinding
        cases hbinding
    rw [heldText_none, List.append_nil, unexport_of_not_startsExport hexport]

theorem follows_stripLine (hne : line ≠ []) (h : Follows before block)
    (hkeeps : Keeps free block line) :
    Follows (before ++ [line]) (stripLine free block line).block := by
  intro kind
  rw [listOpen_append_singleton_iff]
  have hstrips := strips_stripLine free block line
  unfold Keeps at hkeeps
  generalize stripLine free block line = out at hstrips hkeeps ⊢
  cases hstrips with
  | closed =>
    have hnil := List.append_eq_nil_iff.1 hkeeps.symm
    exact absurd hnil.2 hne
  | @held b hopen _ hbinding =>
    constructor
    · rintro (hopening | ⟨hkind, -⟩)
      · rw [not_bindingNames_of_opening hopening] at hbinding
        cases hbinding
      · obtain ⟨b', hb', rfl⟩ := (h kind).1 hkind
        obtain rfl := Option.some.inj (hopen.symm.trans hb')
        exact ⟨_, rfl, rfl⟩
    · rintro ⟨b', hb', rfl⟩
      obtain rfl := Option.some.inj hb'
      have hlist : ListOpen b.kind before := listOpen_of_follows h hopen
      exact .inr ⟨hlist, hbinding⟩
  | dropped => exact absurd (List.append_cancel_left hkeeps).symm hne
  | opened hrole =>
    rw [hrole]
    constructor
    · rintro (hkind | ⟨-, hbinding⟩)
      · obtain rfl := LineRole.opening.inj hkind
        exact ⟨_, rfl, rfl⟩
      · rw [not_bindingNames_of_opening hrole] at hbinding
        cases hbinding
    · rintro ⟨b, hb, rfl⟩
      obtain rfl := Option.some.inj hb
      exact .inl rfl
  | kept hrole houtside =>
    rw [hrole]
    constructor
    · rintro (hkind | ⟨hopen, hbinding⟩)
      · cases hkind
      · rw [(not_accepts_of_listOpen h houtside hopen).2] at hbinding
        cases hbinding
    · rintro ⟨_, hnone, -⟩
      cases hnone

theorem kept_iff (hls : ∀ l ∈ ls, OneLine l ∧ l ≠ []) (h : Follows before block) :
    Kept free block ls ↔
      ∀ earlier line after, ls = earlier ++ line :: after → Stays (before ++ earlier) line := by
  induction ls generalizing before block with
  | nil =>
    refine ⟨fun _ earlier line after hnil => ?_, fun _ => trivial⟩
    exact absurd hnil.symm (List.append_ne_nil_of_right_ne_nil _ (List.cons_ne_nil _ _))
  | cons first rest ih =>
    obtain ⟨hone, hne⟩ := hls first (by simp)
    have hrest : ∀ l ∈ rest, OneLine l ∧ l ≠ [] := fun l hl => hls l (List.mem_cons_of_mem _ hl)
    constructor
    · rintro ⟨hkeeps, hkept⟩ earlier line after hsplit
      cases earlier with
      | nil =>
        obtain ⟨rfl, -⟩ := List.cons.inj hsplit
        rw [List.append_nil]
        exact stays_of_keeps hone hne h hkeeps
      | cons _ more =>
        obtain ⟨rfl, hmore⟩ := List.cons.inj hsplit
        have hstays := (ih hrest (follows_stripLine hne h hkeeps)).1 hkept more line after hmore
        rwa [List.append_assoc, List.singleton_append] at hstays
    · intro hstays
      have hfirst : Stays before first := by
        have hstart := hstays [] first rest rfl
        rwa [List.append_nil] at hstart
      have hkeeps : Keeps free block first := keeps_of_stays h hfirst
      refine ⟨hkeeps, (ih hrest (follows_stripLine hne h hkeeps)).2 fun more line after hmore => ?_⟩
      have hlater := hstays (first :: more) line after (by rw [hmore, List.cons_append])
      rwa [List.append_assoc, List.singleton_append]

theorem stripModuleSyntax_eq_self_iff (cs : List Char) :
    stripModuleSyntax cs = cs ↔ Settled (lines cs) := by
  have hcut := cut_lines cs
  have hkept : Kept (freeRootName cs) none (lines cs) ↔ Settled (lines cs) :=
    kept_iff (fun l hl => ⟨hcut.oneLine hl, hcut.ne_nil hl⟩) follows_nil
  have hstrip : stripLines (freeRootName cs) none (lines cs)
      = heldText none ++ (lines cs).flatten ↔ Kept (freeRootName cs) none (lines cs) :=
    stripLines_eq_iff_kept hcut
  rw [heldText_none, List.nil_append, flatten_lines] at hstrip
  exact hstrip.trans hkept

theorem classicScript_eq_self_iff (source : String) :
    classicScript source = source ↔
      isHarmless source.toList ∧ Settled (lines source.toList) := by
  have hout : (classicScript source).toList = escapeHazards (stripModuleSyntax source.toList) := by
    rw [classicScript, defuse, withoutModuleSyntax, String.toList_ofList, String.toList_ofList]
  rw [← String.toList_inj, hout, ← stripModuleSyntax_eq_self_iff]
  constructor
  · intro hsame
    have hharmless : isHarmless source.toList := by
      rw [← hsame]
      exact isHarmless_escapeHazards _
    rw [escapeHazards_of_isHarmless (isHarmless_stripModuleSyntax hharmless)] at hsame
    exact ⟨hharmless, hsame⟩
  · rintro ⟨hharmless, hsame⟩
    rw [hsame, escapeHazards_of_isHarmless hharmless]

/-- A second pass changes nothing exactly when the first pass leaves settled lines. -/
theorem classicScript_idempotent_iff (source : String) :
    classicScript (classicScript source) = classicScript source ↔
      Settled (lines (classicScript source).toList) := by
  rw [classicScript_eq_self_iff]
  exact and_iff_right (isHarmless_classicScript source)

/-- A text of the program quotes an import list with another import inside. The first pass drops the
inner import, and the second one drops the list. -/
def interruptedList : String :=
  "const help = `\nimport \x7b\nimport './theme.css';\n  Chart,\n\x7d from 'charts';\n`;\n"
    ++ "const App = () => help;\n"

theorem classicScript_interruptedList :
    classicScript (classicScript interruptedList) ≠ classicScript interruptedList := by
  decide +kernel

end LivePreview.Source
