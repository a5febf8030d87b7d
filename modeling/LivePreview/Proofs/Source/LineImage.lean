import LivePreview.Proofs.Source.BindingList

namespace LivePreview.Source

open LivePreview.Text

open LivePreview.Text.Pattern (Matches)

def Dropped (ls : List Line) (k : Nat) : Prop :=
  InWholeList ls k ∨ ∃ p ∈ declaring, MatchesAt p ls k

open Classical in
noncomputable def image (free : Option RootName) (ls : List Line) (k : Nat) : List Char :=
  if Dropped ls k then []
  else if InBrokenList ls k then ls.getD k []
  else unexport free (ls.getD k [])

noncomputable def images (free : Option RootName) (ls : List Line) (i n : Nat) : List Char :=
  (List.range' i (n - i)).flatMap (image free ls)

/-- The block that is open before line `n`; the lines before line `i` are settled. -/
inductive Tracks (ls : List Line) : Option OpenBlock → Nat → Nat → Prop where
  | outside {n : Nat} : (∀ kind i, ¬ ListFrom ls kind i n) → Tracks ls none n n
  | inside {kind : BlockKind} {i n : Nat} :
      ListFrom ls kind i n → Tracks ls (some ⟨kind, (ls.take n).drop i⟩) i n

variable {free : Option RootName} {ls : List Line} {block : Option OpenBlock} {line : Line}
  {kind : BlockKind} {i i' k m n : Nat}

theorem image_of_dropped (h : Dropped ls k) : image free ls k = [] := by
  rw [image, if_pos h]

theorem image_of_held (h : InBrokenList ls k) (hnot : ¬ Dropped ls k) (hline : ls[k]? = some line) :
    image free ls k = line := by
  rw [image, if_neg hnot, if_pos h, List.getD_eq_getElem?_getD, hline]
  rfl

theorem image_of_program (hdropped : ¬ Dropped ls k) (hheld : ¬ InBrokenList ls k)
    (hline : ls[k]? = some line) : image free ls k = unexport free line := by
  rw [image, if_neg hdropped, if_neg hheld, List.getD_eq_getElem?_getD, hline]
  rfl

theorem images_self : images free ls i i = [] := by
  rw [images, Nat.sub_self]
  rfl

theorem images_succ (h : i ≤ n) :
    images free ls i (n + 1) = images free ls i n ++ image free ls n := by
  have hlength : n + 1 - i = n - i + 1 := by omega
  have hlast : i + 1 * (n - i) = n := by omega
  rw [images, images, hlength, List.range'_concat, List.flatMap_append, hlast]
  simp

theorem images_append (hi : i ≤ m) (hm : m ≤ n) :
    images free ls i m ++ images free ls m n = images free ls i n := by
  have hmiddle : i + (m - i) = m := by omega
  have hlength : m - i + (n - m) = n - i := by omega
  have hranges := List.range'_append_1 (s := i) (m := m - i) (n := n - m)
  rw [hmiddle, hlength] at hranges
  rw [images, images, images, ← List.flatMap_append, hranges]

theorem images_of_dropped (h : ∀ k, i ≤ k → k < n → Dropped ls k) : images free ls i n = [] := by
  refine List.flatMap_eq_nil_iff.2 fun k hk => ?_
  obtain ⟨hi, hn⟩ := List.mem_range'_1.1 hk
  exact image_of_dropped (h k hi (by omega))

theorem stretch_succ (h : i ≤ n) (hline : ls[n]? = some line) :
    (ls.take (n + 1)).drop i = (ls.take n).drop i ++ [line] := by
  have hlt := (List.getElem?_eq_some_iff.1 hline).1
  rw [List.take_add_one, hline, Option.toList_some, List.drop_append_of_le_length]
  rw [List.length_take]
  omega

theorem le_length_of_line (hline : ls[k]? = some line) : k ≤ ls.length :=
  Nat.le_of_lt (List.getElem?_eq_some_iff.1 hline).1

theorem declared_iff (hline : ls[k]? = some line) :
    (∃ p ∈ declaring, MatchesAt p ls k) ↔ isDeclaration line.body = true := by
  simp only [matchesAt_iff hline, isDeclaration_iff]

theorem BrokenList.not_dropped {n : Nat} (h : BrokenList ls i n) (hi : i ≤ k) (hk : k < n) :
    ¬ Dropped ls k := by
  have hheld : InBrokenList ls k := ⟨i, n, h, hi, hk⟩
  rintro (hwhole | ⟨p, hp, hmatches⟩)
  · exact not_inWholeList_of_inBrokenList hheld hwhole
  · obtain ⟨line, hline, -⟩ := id hmatches
    have hdeclared := (declared_iff hline).1 ⟨p, hp, hmatches⟩
    rcases listFrom_of_inBrokenList hheld with ⟨kind, hopens⟩ | ⟨-, -, -, hnames⟩
    · rw [not_isDeclaration_of_opener ((matchesAt_iff hline).1 hopens)] at hdeclared
      cases hdeclared
    · have hnames := (matchesAt_iff_accepts hline).1 hnames
      rw [not_isDeclaration_of_bindingNames hnames] at hdeclared
      cases hdeclared

theorem BrokenList.images_eq (h : BrokenList ls i n) :
    images free ls i n = ((ls.take n).drop i).flatten := by
  have hstretch : ∀ m, i ≤ m → m ≤ n → images free ls i m = ((ls.take m).drop i).flatten := by
    intro m him
    induction him with
    | refl =>
      intro _
      rw [images_self, List.drop_take_self]
      rfl
    | @step m him ih =>
      intro hm
      obtain ⟨kind, hlist, hlength, -⟩ := id h
      have hline : ls[m]? = some ls[m] := List.getElem?_eq_getElem (by omega)
      rw [images_succ him, ih (by omega), stretch_succ him hline, List.flatten_append,
        List.flatten_singleton]
      rw [image_of_held ⟨i, n, h, him, by omega⟩ (h.not_dropped him (by omega)) hline]
  obtain ⟨kind, hlist, -⟩ := id h
  exact hstretch n (Nat.le_of_lt hlist.lt) (Nat.le_refl n)

namespace Tracks

theorem le (h : Tracks ls block i n) : i ≤ n := by
  cases h with
  | outside => exact Nat.le_refl _
  | inside hlist => exact Nat.le_of_lt hlist.lt

theorem block_of_listFrom (h : Tracks ls block i n) (hlist : ListFrom ls kind i' n) :
    ∃ b, block = some b ∧ b.kind = kind := by
  cases h with
  | outside hnone => exact absurd hlist (hnone kind i')
  | inside hopen => exact ⟨_, rfl, (hopen.unique hlist).1⟩

def Ends (ls : List Line) (n : Nat) (block : Option OpenBlock) : Prop :=
  ∀ b, block = some b →
    ¬ MatchesAt ModuleSyntax.bindingNames ls n ∧ ¬ MatchesAt b.kind.closing ls n

theorem settle (h : Tracks ls block i n) (hn : n ≤ ls.length) (hends : Ends ls n block) :
    heldText block = images free ls i n := by
  cases h with
  | outside =>
    rw [images_self]
    rfl
  | inside hlist =>
    have hbroken : BrokenList ls i n := ⟨_, hlist, hn, hends _ rfl⟩
    rw [hbroken.images_eq]
    rfl

theorem outside_succ (hopens : ∀ kind : BlockKind, ¬ MatchesAt kind.opener ls n)
    (hnames : ∀ kind i, ListFrom ls kind i n → ¬ MatchesAt ModuleSyntax.bindingNames ls n) :
    Tracks ls none (n + 1) (n + 1) := by
  refine .outside fun kind i hlist => ?_
  rcases listFrom_succ_iff.1 hlist with ⟨-, hopener⟩ | ⟨hbefore, hname, -⟩
  · exact hopens kind hopener
  · exact hnames kind i hbefore hname

theorem not_listed (h : Tracks ls block i n)
    (hopens : ∀ kind : BlockKind, ¬ MatchesAt kind.opener ls n) (hends : Ends ls n block) :
    ¬ InWholeList ls n ∧ ¬ InBrokenList ls n := by
  constructor
  · intro hwhole
    rcases listFrom_of_inWholeList hwhole with ⟨kind, hopener⟩ | ⟨kind, i', hlist, hpart⟩
    · exact hopens kind hopener
    · obtain ⟨b, hb, rfl⟩ := h.block_of_listFrom hlist
      exact hpart.elim (hends b hb).1 (hends b hb).2
  · intro hbroken
    rcases listFrom_of_inBrokenList hbroken with ⟨kind, hopener⟩ | ⟨kind, i', hlist, hname⟩
    · exact hopens kind hopener
    · obtain ⟨b, hb, -⟩ := h.block_of_listFrom hlist
      exact (hends b hb).1 hname

def Settles (free : Option RootName) (ls : List Line) (i n : Nat) (out : Stripped) : Prop :=
  ∃ i', i ≤ i' ∧ Tracks ls out.block i' (n + 1) ∧ out.text = images free ls i i'

theorem settles_closed {b : OpenBlock} (h : Tracks ls (some b) i n)
    (hcloses : MatchesAt b.kind.closing ls n) : Settles free ls i n ⟨[], none⟩ := by
  have hopens : ∀ kind : BlockKind, ¬ MatchesAt kind.opener ls n :=
    fun _ hopener => hopener.not_matchesAt (fun _ => not_closing_of_opener) hcloses
  have hnames : ¬ MatchesAt ModuleSyntax.bindingNames ls n :=
    hcloses.not_matchesAt fun _ => not_names_of_closing
  refine ⟨n + 1, Nat.le_succ_of_le h.le, outside_succ hopens fun _ _ _ => hnames, ?_⟩
  cases h with
  | inside hlist =>
    have hwhole : WholeList ls i n := wholeList_of_closing hlist hcloses
    have hdropped : ∀ k, i ≤ k → k < n + 1 → Dropped ls k :=
      fun k hi hk => .inl ⟨i, n, hwhole, hi, Nat.le_of_lt_succ hk⟩
    exact (images_of_dropped hdropped).symm

theorem settles_held {b : OpenBlock} (h : Tracks ls (some b) i n) (hline : ls[n]? = some line)
    (hnames : MatchesAt ModuleSyntax.bindingNames ls n)
    (hcloses : ¬ MatchesAt b.kind.closing ls n) :
    Settles free ls i n ⟨[], some { b with held := b.held ++ [line] }⟩ := by
  cases h with
  | @inside kind i n hlist =>
    refine ⟨i, Nat.le_refl i, ?_, images_self.symm⟩
    rw [← stretch_succ (Nat.le_of_lt hlist.lt) hline]
    exact .inside (listFrom_succ_iff.2 (.inr ⟨hlist, hnames, hcloses⟩))

theorem settles_dropped (h : Tracks ls block i n) (hline : ls[n]? = some line)
    (hdeclared : isDeclaration line.body) : Settles free ls i n ⟨heldText block, none⟩ := by
  have hparts : ∀ p : Pattern, (∀ u, Matches p u → isDeclaration u = false) →
      ¬ MatchesAt p ls n := by
    intro p hp hmatches
    rw [hp _ ((matchesAt_iff hline).1 hmatches)] at hdeclared
    cases hdeclared
  have hopens : ∀ kind : BlockKind, ¬ MatchesAt kind.opener ls n :=
    fun kind => hparts _ fun _ => not_isDeclaration_of_opener
  have hnames : ¬ MatchesAt ModuleSyntax.bindingNames ls n :=
    hparts _ fun _ hu => not_isDeclaration_of_bindingNames (Pattern.accepts_iff.2 hu)
  have hends : Ends ls n block :=
    fun b _ => ⟨hnames, hparts _ fun _ => not_isDeclaration_of_closing⟩
  refine ⟨n + 1, Nat.le_succ_of_le h.le, outside_succ hopens fun _ _ _ => hnames, ?_⟩
  rw [images_succ h.le, ← h.settle (le_length_of_line hline) hends,
    image_of_dropped (.inr ((declared_iff hline).2 hdeclared)), List.append_nil]

theorem settles_opened (h : Tracks ls block i n) (hline : ls[n]? = some line)
    (hopener : MatchesAt kind.opener ls n) (hends : Ends ls n block) :
    Settles free ls i n ⟨heldText block, some ⟨kind, [line]⟩⟩ := by
  refine ⟨n, h.le, ?_, h.settle (le_length_of_line hline) hends⟩
  have hstretch := stretch_succ (Nat.le_refl n) hline
  rw [List.drop_take_self, List.nil_append] at hstretch
  rw [← hstretch]
  exact .inside (listFrom_succ_iff.2 (.inl ⟨rfl, hopener⟩))

theorem settles_kept (h : Tracks ls block i n) (hline : ls[n]? = some line)
    (hrole : LineRole.ofBody line.body = .program) (hends : Ends ls n block) :
    Settles free ls i n ⟨heldText block ++ unexport free line, none⟩ := by
  have hopens : ∀ kind : BlockKind, ¬ MatchesAt kind.opener ls n := by
    intro kind hopener
    rw [ofBody_eq_opening_iff.2 ((matchesAt_iff hline).1 hopener)] at hrole
    cases hrole
  have hnames : ∀ kind i, ListFrom ls kind i n → ¬ MatchesAt ModuleSyntax.bindingNames ls n := by
    intro kind i' hlist
    obtain ⟨b, hb, -⟩ := h.block_of_listFrom hlist
    exact (hends b hb).1
  obtain ⟨hwhole, hbroken⟩ := h.not_listed hopens hends
  have hdropped : ¬ Dropped ls n := by
    rintro (hlisted | hdeclared)
    · exact hwhole hlisted
    · rw [declared_iff hline, (ofBody_eq_program_iff.1 hrole).1] at hdeclared
      cases hdeclared
  refine ⟨n + 1, Nat.le_succ_of_le h.le, outside_succ hopens hnames, ?_⟩
  rw [images_succ h.le, ← h.settle (le_length_of_line hline) hends,
    image_of_program hdropped hbroken hline]

theorem step (free : Option RootName) (h : Tracks ls block i n) (hline : ls[n]? = some line) :
    Settles free ls i n (stripLine free block line) := by
  have hmatches (p : Pattern) := matchesAt_iff_accepts (p := p) hline
  have hstrips := strips_stripLine free block line
  generalize stripLine free block line = out at hstrips ⊢
  cases hstrips with
  | closed hopen hclosing =>
    subst hopen
    exact h.settles_closed ((hmatches _).2 hclosing)
  | held hopen hclosing hbinding =>
    subst hopen
    exact h.settles_held hline ((hmatches _).2 hbinding) (by simp [hmatches, hclosing])
  | dropped hdeclaration => exact h.settles_dropped hline hdeclaration
  | opened hrole hclosing =>
    have hopener := (matchesAt_iff hline).2 (ofBody_eq_opening_iff.1 hrole)
    have hnames := hopener.not_matchesAt fun _ => not_names_of_opener
    exact h.settles_opened hline hopener fun b hb => ⟨hnames, by simp [hmatches, hclosing b hb]⟩
  | kept hrole houtside =>
    exact h.settles_kept hline hrole fun b hb => by simp [hmatches, houtside b hb]

theorem stripLine_of_program (free : Option RootName) (h : Tracks ls block i k)
    (hline : ls[k]? = some line) (hrole : LineRole.ofBody line.body = .program)
    (hoff : ¬ InWholeList ls k ∧ ¬ InBrokenList ls k) :
    stripLine free block line = ⟨heldText block ++ unexport free line, none⟩ := by
  have hmatches (p : Pattern) := matchesAt_iff_accepts (p := p) hline
  have hstrips := strips_stripLine free block line
  generalize stripLine free block line = out at hstrips ⊢
  cases hstrips with
  | closed hopen hclosing =>
    subst hopen
    cases h with
    | inside hlist =>
      have hwhole := wholeList_of_closing hlist ((hmatches _).2 hclosing)
      exact absurd ⟨_, _, hwhole, Nat.le_of_lt hlist.lt, Nat.le_refl k⟩ hoff.1
  | held hopen hclosing hbinding =>
    subst hopen
    cases h with
    | @inside kind i k hlist =>
      have hnot : ¬ MatchesAt kind.closing ls k := by simp [hmatches, hclosing]
      have hnext := listFrom_succ_iff.2 (.inr ⟨hlist, (hmatches _).2 hbinding, hnot⟩)
      exact absurd (hnext.listed (List.getElem?_eq_some_iff.1 hline).1) (not_or.2 hoff)
  | dropped hdeclaration =>
    rw [(ofBody_eq_program_iff.1 hrole).1] at hdeclaration
    cases hdeclaration
  | opened hopening =>
    rw [hrole] at hopening
    cases hopening
  | kept => rfl

end Tracks

theorem tracks_lines (free : Option RootName) (hn : n ≤ ls.length) :
    ∃ block i, Tracks ls block i n ∧ ∀ rest,
      stripLines free none (ls.take n ++ rest) =
        images free ls 0 i ++ stripLines free block rest := by
  induction n with
  | zero =>
    refine ⟨none, 0, .outside fun kind i hlist => Nat.not_lt_zero i hlist.lt, fun rest => ?_⟩
    rw [images_self]
    rfl
  | succ n ih =>
    obtain ⟨block, i, htracks, hrun⟩ := ih (by omega)
    have hline : ls[n]? = some ls[n] := List.getElem?_eq_getElem hn
    obtain ⟨i', hi, hnext, htext⟩ := htracks.step free hline
    refine ⟨_, i', hnext, fun rest => ?_⟩
    rw [List.take_add_one, hline, List.append_assoc, hrun, Option.toList_some,
      List.singleton_append, stripLines_cons, htext, ← List.append_assoc,
      images_append (Nat.zero_le i) hi]

theorem stripLines_eq_images (free : Option RootName) (ls : List Line) :
    stripLines free none ls = images free ls 0 ls.length := by
  obtain ⟨block, i, htracks, hrun⟩ := tracks_lines free (Nat.le_refl ls.length)
  have hends : Tracks.Ends ls ls.length block :=
    fun b _ => ⟨fun h => Nat.lt_irrefl _ h.lt_length, fun h => Nat.lt_irrefl _ h.lt_length⟩
  have hall := hrun []
  have hheld : heldText block = images free ls i ls.length :=
    htracks.settle (Nat.le_refl _) hends
  rw [List.take_length, List.append_nil, stripLines_nil, hheld] at hall
  rw [hall, images_append (Nat.zero_le i) htracks.le]

theorem stripLines_split_of {text : List Char} (free : Option RootName) (hline : ls[k]? = some line)
    (hstrip : ∀ block i, Tracks ls block i k →
      stripLine free block line = ⟨heldText block ++ text, none⟩) :
    stripLines free none ls = stripLines free none (ls.take k) ++ text
      ++ stripLines free none (ls.drop (k + 1)) := by
  obtain ⟨hk, hget⟩ := List.getElem?_eq_some_iff.1 hline
  obtain ⟨block, i, htracks, hrun⟩ := tracks_lines free (Nat.le_of_lt hk)
  have hbefore := hrun []
  rw [List.append_nil, stripLines_nil] at hbefore
  have hall := hrun (line :: ls.drop (k + 1))
  have hdrop : line :: ls.drop (k + 1) = ls.drop k := hget ▸ List.getElem_cons_drop hk
  rw [stripLines_cons, hstrip block i htracks, ← List.append_assoc, ← List.append_assoc, ← hbefore,
    hdrop, List.take_append_drop] at hall
  exact hall

theorem stripLines_split (free : Option RootName) (hline : ls[k]? = some line)
    (hrole : LineRole.ofBody line.body = .program)
    (hoff : ¬ InWholeList ls k ∧ ¬ InBrokenList ls k) :
    stripLines free none ls = stripLines free none (ls.take k) ++ unexport free line
      ++ stripLines free none (ls.drop (k + 1)) :=
  stripLines_split_of free hline fun _ _ h => h.stripLine_of_program free hline hrole hoff

theorem stripLine_of_declaration (free : Option RootName) (block : Option OpenBlock)
    (h : isDeclaration line.body) : stripLine free block line = ⟨heldText block, none⟩ := by
  have hstrips := strips_stripLine free block line
  generalize stripLine free block line = out at hstrips ⊢
  cases hstrips with
  | closed _ hclosing =>
    rw [not_isDeclaration_of_closing (Pattern.accepts_iff.1 hclosing)] at h
    cases h
  | held _ _ hbinding =>
    rw [not_isDeclaration_of_bindingNames hbinding] at h
    cases h
  | dropped => rfl
  | opened hopening =>
    rw [ofBody_eq_declaration_iff.2 h] at hopening
    cases hopening
  | kept hprogram =>
    rw [ofBody_eq_declaration_iff.2 h] at hprogram
    cases hprogram

theorem stripLines_split_declared (free : Option RootName) (hline : ls[k]? = some line)
    (hdeclared : isDeclaration line.body) :
    stripLines free none ls = stripLines free none (ls.take k)
      ++ stripLines free none (ls.drop (k + 1)) := by
  have hstrip (block : Option OpenBlock) (i : Nat) (_ : Tracks ls block i k) :
      stripLine free block line = ⟨heldText block ++ [], none⟩ := by
    rw [stripLine_of_declaration free block hdeclared, List.append_nil]
  rw [stripLines_split_of free hline hstrip, List.append_nil]

/-- The program without module syntax is made of one text for each line, in the order of the lines.
Declarations and whole lists leave nothing, the lines of a broken list stay, and any other line
loses the `export` that it may begin with. -/
theorem withoutModuleSyntax_eq_images (source : String) :
    ∃ texts : List (List Char), (withoutModuleSyntax source).toList = texts.flatten ∧
      let ls := lines source.toList
      let free := freeRootName source.toList
      texts.length = ls.length ∧
      ∀ k line text, ls[k]? = some line → texts[k]? = some text →
        (Dropped ls k → text = []) ∧
        (InBrokenList ls k → ¬ Dropped ls k ∧ text = line) ∧
        (¬ Dropped ls k → ¬ InBrokenList ls k → text = unexport free line ∧
          (text = line ↔ ¬ ∃ indent gap rest, line = indent ++ "export".toList ++ gap :: rest ∧
            (∀ c ∈ indent, isBlank c) ∧ isBlank gap)) := by
  let places := List.range (lines source.toList).length
  refine ⟨places.map (image (freeRootName source.toList) (lines source.toList)), ?_, ?_⟩
  · have hall := stripLines_eq_images (freeRootName source.toList) (lines source.toList)
    rw [images, Nat.sub_zero, ← List.range_eq_range', List.flatMap_def] at hall
    rw [withoutModuleSyntax, String.toList_ofList]
    exact hall
  · intro ls free
    refine ⟨by simp [places, ls], ?_⟩
    intro k line text hline htext
    obtain rfl : image free ls k = text := by
      have hk : k < (lines source.toList).length := (List.getElem?_eq_some_iff.1 hline).1
      simpa [places, hk] using htext
    refine ⟨image_of_dropped, fun hheld => ?_, fun hdropped hheld => ?_⟩
    · obtain ⟨i, n, hbroken, hi, hn⟩ := id hheld
      have hnot := hbroken.not_dropped hi hn
      exact ⟨hnot, image_of_held hheld hnot hline⟩
    · have hone : OneLine line := (cut_lines source.toList).oneLine (List.mem_of_getElem? hline)
      rw [image_of_program hdropped hheld hline, unexport_eq_self_iff free hone, ← startsExport_iff,
        Bool.not_eq_true]
      exact ⟨rfl, Iff.rfl⟩

end LivePreview.Source
