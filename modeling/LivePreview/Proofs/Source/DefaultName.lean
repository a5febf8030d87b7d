import LivePreview.Proofs.Source.DefaultValue

/-!
How a default export gets its name. A function or a class is told by the words on its line with
white space alone between them; what looks like a named declaration stays, and everything else
becomes a variable.
-/

namespace LivePreview.Source

open LivePreview.Text

structure LinePart (line later : List Char) : Prop where
  oneLine : OneLine line
  ended : later = [] ∨ line.getLast? = some '\n'

def ReadsAsDeclaration (text : List Char) : Prop :=
  StartsDeclaration (fun rest => endsWord rest) IsSpace text

/-- White space alone parts the words that tell a function or a class from other values. -/
def DefaultValue.Plain : DefaultValue → Prop
  | .functionValue async gap star _ =>
      (∀ g ∈ async, IsSpace g) → IsSpace gap ∧ ∀ g ∈ star, IsSpace g
  | .classValue gap _ _ => IsSpace gap
  | .expression text => ¬ ReadsAsDeclaration text

variable {value : DefaultValue} {name : RootName} {line later gap r u v w x : List Char} {c : Char}

namespace LinePart

theorem ne_nil (h : LinePart line later) (hsplit : line ++ later = v) (hv : v ≠ []) :
    line ≠ [] := by
  rintro rfl
  obtain rfl | hnone := h.ended
  · exact hv hsplit.symm
  · cases hnone

theorem suffix (h : LinePart (u ++ r) later) (hu : '\n' ∉ u) : LinePart r later := by
  refine ⟨h.oneLine.suffix, h.ended.imp_right fun hlast => ?_⟩
  cases r with
  | nil =>
    rw [List.append_nil] at hlast
    exact absurd (List.mem_of_getLast? hlast) hu
  | cons c r => rwa [List.getLast?_append_cons] at hlast

theorem cut (h : LinePart line later) (hsplit : line ++ later = u ++ v) (hu : '\n' ∉ u) :
    ∃ r, line = u ++ r ∧ r ++ later = v ∧ LinePart r later := by
  rcases List.append_eq_append_iff.1 hsplit with ⟨a, rfl, hlater⟩ | ⟨r, rfl, rfl⟩
  · obtain rfl : later = [] := by
      refine h.ended.resolve_right fun hlast => hu ?_
      exact List.mem_append_left a (List.mem_of_getLast? hlast)
    obtain ⟨rfl, rfl⟩ := List.append_eq_nil_iff.1 hlater.symm
    exact ⟨[], by simp, rfl, ⟨oneLine_of_not_mem (by simp), .inl rfl⟩⟩
  · exact ⟨r, rfl, rfl, h.suffix hu⟩

theorem endsWord (h : LinePart r later) : Text.endsWord (r ++ later) = Text.endsWord r := by
  cases r with
  | nil =>
    obtain rfl | hnone := h.ended
    · rfl
    · cases hnone
  | cons c r => rfl

end LinePart

theorem linePart_of_cut {ls : List Line} {k : Nat} (hcut : Cut ls) (hline : ls[k]? = some line) :
    LinePart line (ls.drop (k + 1)).flatten := by
  induction hcut generalizing k with
  | nil => cases hline
  | last _ hbody =>
    cases k with
    | zero =>
      obtain rfl := Option.some.inj hline
      exact ⟨oneLine_of_not_mem hbody, .inl rfl⟩
    | succ k => cases hline
  | cons hbody _ ih =>
    cases k with
    | zero =>
      obtain rfl := Option.some.inj hline
      exact ⟨oneLine_newline hbody, .inr (by simp)⟩
    | succ k => exact ih hline

theorem newline_notMem_of_isSpace (h : IsSpace u) : '\n' ∉ u :=
  fun hc => (h _ hc).2 rfl

theorem dropBlanks_cons (hc : isBlank c = false) : dropBlanks (c :: u) = c :: u := by
  simp [dropBlanks, hc]

theorem exists_isSpace_append (u : List Char) : ∃ v w, u = v ++ w ∧ IsSpace v ∧
    ∀ c ∈ w.head?, isBlank c → c = '\n' := by
  induction u with
  | nil => exact ⟨[], [], rfl, by simp [IsSpace], by simp⟩
  | cons c u ih =>
    by_cases hc : isBlank c ∧ c ≠ '\n'
    · obtain ⟨v, w, rfl, hv, hw⟩ := ih
      refine ⟨c :: v, w, rfl, fun d hd => ?_, hw⟩
      rcases List.mem_cons.1 hd with rfl | hd
      · exact hc
      · exact hv d hd
    · refine ⟨[], c :: u, rfl, by simp [IsSpace], fun d hd hblank => ?_⟩
      obtain rfl : c = d := by simpa using hd
      exact by_contra fun hne => hc ⟨hblank, hne⟩

theorem Trivia.cut (hgap : Trivia gap) (hr : LinePart r later) (hsplit : r ++ later = gap ++ c :: v)
    (hc : isBlank c = false) :
    (IsSpace gap ∧ ∃ x, r = gap ++ c :: x ∧ dropBlanks r = c :: x ∧ x ++ later = v ∧
      LinePart (c :: x) later) ∨
    (¬ IsSpace gap ∧ (∀ d ∈ (dropBlanks r).head?, d = '/') ∧
      ∃ lead, Trivia lead ∧ dropBlanks r ++ later = lead ++ c :: v) := by
  obtain ⟨front, back, rfl, hfront, hback⟩ := exists_isSpace_append gap
  have hblank := LaidLine.isBlank_of_isSpace hfront
  have htrivia := hgap.of_append_blank hblank
  rw [List.append_assoc] at hsplit
  obtain ⟨r, rfl, hsplit, hr⟩ := hr.cut hsplit (newline_notMem_of_isSpace hfront)
  rw [dropBlanks_append_of_all hblank]
  obtain ⟨d, r, rfl⟩ := List.exists_cons_of_ne_nil (hr.ne_nil hsplit (by simp))
  cases back with
  | nil =>
    obtain ⟨rfl, rfl⟩ := List.cons.inj hsplit
    left
    rw [List.append_nil]
    exact ⟨hfront, r, rfl, dropBlanks_cons hc, rfl, hr⟩
  | cons e back =>
    obtain ⟨rfl, hrest⟩ := List.cons.inj hsplit
    right
    have hnot : ¬ IsSpace (front ++ d :: back) := fun hspace => by
      obtain ⟨hd, hne⟩ := hspace d (by simp)
      exact hne (hback d rfl hd)
    refine ⟨hnot, ?_⟩
    by_cases hd : isBlank d
    · obtain rfl := hback d rfl hd
      obtain rfl : r = [] := by
        by_contra hne
        exact hr.oneLine ['\n'] r rfl hne List.mem_cons_self
      have hempty : dropBlanks ['\n'] = [] := rfl
      rw [hempty]
      refine ⟨by simp, back, ?_, hrest⟩
      exact htrivia.of_append_blank (u := ['\n']) (by simp [hd])
    · have hslash : d = '/' := htrivia.head.resolve_left hd
      rw [dropBlanks_cons (by simpa using hd)]
      exact ⟨by simp [hslash], d :: back, htrivia, hsplit⟩

theorem startsKeyword_iff {word : String} {cs : List Char} :
    startsKeyword word cs ↔ ∃ rest, cs = word.toList ++ rest ∧ endsWord rest := by
  unfold startsKeyword
  constructor
  · intro h
    split at h
    · rename_i rest hrest
      exact ⟨rest, (List.append_eq_of_isPrefixOf?_eq_some hrest).symm, h⟩
    · cases h
  · rintro ⟨rest, rfl, hrest⟩
    rw [List.isPrefixOf?_eq_some_iff_append_eq.2 rfl]
    exact hrest

theorem isWord_of_isBlank (h : isBlank c) : isWord c = false :=
  (Bool.or_eq_false_iff.1 (not_isNameChar_of_isBlank h)).1

theorem nameEnds_of_dropBlanks (h : dropBlanks u = c :: v) (hc : isNameChar c = false) :
    NameEnds u := by
  rintro d w rfl
  by_cases hblank : isBlank d
  · exact not_isNameChar_of_isBlank hblank
  · rw [dropBlanks_cons (by simpa using hblank)] at h
    exact (List.cons.inj h).1 ▸ hc

theorem endsWord_of_nameEnds (h : NameEnds u) : endsWord u := by
  cases u with
  | nil => rfl
  | cons c u =>
    have hc : isWord c = false := (Bool.or_eq_false_iff.1 (h c u rfl)).1
    simp [endsWord, hc]

theorem NameEnds.append (h : NameEnds u) (hne : u ≠ []) (v : List Char) : NameEnds (u ++ v) := by
  obtain ⟨c, u, rfl⟩ := List.exists_cons_of_ne_nil hne
  rintro d w heq
  exact (List.cons.inj heq).1 ▸ h c u rfl

theorem body_of_anonymousFunction {p : List Char × List Char} (h : anonymousFunction x = some p) :
    ∃ r, (afterWord "async" x).getD x = "function".toList ++ r ∧ r ≠ [] ∧ NameEnds r := by
  dsimp only [anonymousFunction] at h
  split at h
  · cases h
  · rename_i r hr
    have hmark {c : Char} {v : List Char} (hdrop : dropBlanks r = c :: v)
        (hc : isNameChar c = false) : r ≠ [] ∧ NameEnds r := by
      refine ⟨?_, nameEnds_of_dropBlanks hdrop hc⟩
      rintro rfl
      cases hdrop
    refine ⟨r, (List.append_eq_of_isPrefixOf?_eq_some hr).symm, ?_⟩
    split at h
    · rename_i hopen
      exact hmark hopen (by decide)
    · rename_i hstar
      exact hmark hstar (by decide)
    · cases h

theorem eq_of_anonymousClass (h : anonymousClass x = some u) :
    x = "class".toList ++ u ∧ u ≠ [] ∧ NameEnds u := by
  unfold anonymousClass at h
  split at h
  · cases h
  · rename_i r hr
    have hx := (List.append_eq_of_isPrefixOf?_eq_some hr).symm
    split at h
    · rename_i hbrace
      obtain rfl := Option.some.inj h
      refine ⟨hx, ?_, nameEnds_of_dropBlanks hbrace (by decide)⟩
      rintro rfl
      cases hbrace
    · split at h
      · split at h
        · rename_i hboth
          obtain rfl := Option.some.inj h
          have hblank := (Bool.and_eq_true_iff.1 hboth).1
          cases r with
          | nil => cases hblank
          | cons c r =>
            refine ⟨hx, List.cons_ne_nil c r, ?_⟩
            rintro d w heq
            exact not_isNameChar_of_isBlank ((List.cons.inj heq).1 ▸ hblank)
        · cases h
      · cases h

theorem isNamedDeclaration_of_anonymousFunction {p : List Char × List Char}
    (h : anonymousFunction x = some p) : isNamedDeclaration x := by
  obtain ⟨r, hbody, -, hr⟩ := body_of_anonymousFunction h
  exact Bool.or_eq_true_iff.2 (.inl (startsKeyword_iff.2 ⟨r, hbody, endsWord_of_nameEnds hr⟩))

theorem isNamedDeclaration_of_anonymousClass (h : anonymousClass x = some u) :
    isNamedDeclaration x := by
  obtain ⟨hx, -, hu⟩ := eq_of_anonymousClass h
  exact Bool.or_eq_true_iff.2 (.inr (startsKeyword_iff.2 ⟨u, hx, endsWord_of_nameEnds hu⟩))

theorem declareAs_of_not_named (name : RootName) (h : isNamedDeclaration x = false) :
    declareAs name x = asVariable name x := by
  unfold declareAs
  split
  · rename_i hfunction
    rw [isNamedDeclaration_of_anonymousFunction hfunction] at h
    cases h
  · split
    · rename_i hclass
      rw [isNamedDeclaration_of_anonymousClass hclass] at h
      cases h
    · rw [if_neg (by simp [h])]
      simp only [asVariable, List.append_assoc]

theorem declareAs_of_slash (name : RootName) (h : ∀ d ∈ x.head?, d = '/') :
    declareAs name x = asVariable name x := by
  refine declareAs_of_not_named name ?_
  cases x with
  | nil => rfl
  | cons d x =>
    obtain rfl := h d rfl
    rfl

theorem declareAs_of_named (name : RootName) (h : isNamedDeclaration x)
    (hfunction : anonymousFunction x = none) (hclass : anonymousClass x = none) :
    declareAs name x = x := by
  rw [declareAs, hfunction, hclass]
  exact if_pos h

theorem afterWord_append_gap (word : String) (u : List Char) (hne : gap ≠ [])
    (hgap : ∀ c ∈ gap, isBlank c) (hc : isBlank c = false) :
    afterWord word (word.toList ++ (gap ++ c :: u)) = some (c :: u) := by
  rw [afterWord_append, if_pos (startsBlank_append hne hgap), dropBlanks_append_of_all hgap,
    dropBlanks_cons hc]

theorem isPrefixOf?_of_head {word : String} (hword : word.toList = c :: w)
    (hu : ∀ d ∈ u.head?, d ≠ c) : word.toList.isPrefixOf? u = none := by
  cases hprefix : word.toList.isPrefixOf? u with
  | none => rfl
  | some rest =>
    obtain rfl := List.append_eq_of_isPrefixOf?_eq_some hprefix
    exact absurd rfl (hu c (by simp [hword]))

theorem afterWord_of_head {word : String} (hword : word.toList = c :: w)
    (hu : ∀ d ∈ u.head?, d ≠ c) : afterWord word u = none := by
  rw [afterWord, isPrefixOf?_of_head hword hu]

theorem startsKeyword_of_head {word : String} (hword : word.toList = c :: w)
    (hu : ∀ d ∈ u.head?, d ≠ c) : startsKeyword word u = false := by
  rw [startsKeyword, isPrefixOf?_of_head hword hu]

theorem anonymousClass_of_head (hu : ∀ d ∈ u.head?, d ≠ 'c') : anonymousClass u = none := by
  rw [anonymousClass, isPrefixOf?_of_head (c := 'c') rfl hu]

theorem anonymousFunction_of_head (hu : ∀ d ∈ u.head?, d ∉ ['a', 'f']) :
    anonymousFunction u = none := by
  have hasync : afterWord "async" u = none :=
    afterWord_of_head (c := 'a') rfl fun d hd heq => hu d hd (by simp [heq])
  have hfunction : "function".toList.isPrefixOf? u = none :=
    isPrefixOf?_of_head (c := 'f') rfl fun d hd heq => hu d hd (by simp [heq])
  dsimp only [anonymousFunction]
  rw [hasync, Option.getD_none, hfunction]

section Functions

variable {async star : Option (List Char)} {tail : List Char}

theorem body_asyncText (hasync : ∀ g ∈ async, IsSpace g ∧ g ≠ []) (r : List Char) :
    let value := asyncText async ++ ("function".toList ++ r)
    (afterWord "async" value).getD value = "function".toList ++ r := by
  cases async with
  | none =>
    have hnone : afterWord "async" ("function".toList ++ r) = none :=
      afterWord_of_head (c := 'a') rfl (by intro d hd; obtain rfl := Option.some.inj hd; decide)
    exact congrArg (Option.getD · _) hnone
  | some g =>
    obtain ⟨hspace, hne⟩ := hasync g rfl
    have hbody := afterWord_append_gap "async" ("unction".toList ++ r) hne
      (LaidLine.isBlank_of_isSpace hspace) (by decide : isBlank 'f' = false)
    intro value
    have hvalue : value = "async".toList ++ (g ++ ("function".toList ++ r)) :=
      List.append_assoc _ _ _
    rw [hvalue]
    exact congrArg (Option.getD · _) hbody

theorem named_asyncText (hasync : ∀ g ∈ async, IsSpace g ∧ g ≠ []) (hr : endsWord r) :
    isNamedDeclaration (asyncText async ++ ("function".toList ++ r)) := by
  rw [isNamedDeclaration, body_asyncText hasync r]
  exact Bool.or_eq_true_iff.2 (.inl (startsKeyword_iff.2 ⟨r, rfl, hr⟩))

theorem newline_notMem_asyncText (hasync : ∀ g ∈ async, IsSpace g ∧ g ≠ []) :
    '\n' ∉ asyncText async ++ "function".toList := by
  have hfunction : '\n' ∉ "function".toList := by decide
  cases async with
  | none => exact hfunction
  | some g =>
    simp only [asyncText, Option.elim_some, List.mem_append, not_or]
    exact ⟨⟨by decide, newline_notMem_of_isSpace (hasync g rfl).1⟩, hfunction⟩

theorem exists_async_of_body (hx : LinePart x later)
    (hbody : (afterWord "async" x).getD x = "function".toList ++ r) :
    LinePart r later ∧
      ∃ async, x ++ later = asyncText async ++ ("function".toList ++ (r ++ later)) ∧
        ∀ g ∈ async, IsSpace g ∧ g ≠ [] := by
  cases hafter : afterWord "async" x with
  | none =>
    rw [hafter] at hbody
    obtain rfl : x = _ := hbody
    exact ⟨hx.suffix (by decide), none, List.append_assoc _ _ _, by simp⟩
  | some body =>
    obtain ⟨gap, rfl, hne, hgap⟩ := afterWord_eq_some hafter
    rw [hafter] at hbody
    obtain rfl : body = _ := hbody
    have hline : '\n' ∉ "async".toList ++ gap := hx.oneLine.prefix_notMem (List.cons_ne_nil _ _)
    have hspace : IsSpace gap := fun c hc =>
      ⟨hgap c hc, fun heq => hline (heq ▸ List.mem_append_right _ hc)⟩
    have hrest : LinePart r later := (hx.suffix hline).suffix (by decide)
    exact ⟨hrest, some gap, by simp [asyncText], by simp [hspace, hne]⟩

theorem isNamedDeclaration_iff (hx : LinePart x later) :
    isNamedDeclaration x ↔ ReadsAsDeclaration (x ++ later) := by
  constructor
  · intro h
    rcases Bool.or_eq_true_iff.1 h with h | h
    · obtain ⟨r, hbody, hr⟩ := startsKeyword_iff.1 h
      obtain ⟨hline, hfunction⟩ := exists_async_of_body hx hbody
      rw [← hline.endsWord] at hr
      exact ⟨r ++ later, hr, .inr hfunction⟩
    · obtain ⟨r, rfl, hr⟩ := startsKeyword_iff.1 h
      have hline : LinePart r later := hx.suffix (by decide)
      rw [← hline.endsWord] at hr
      exact ⟨r ++ later, hr, .inl (List.append_assoc _ _ _)⟩
  · rintro ⟨rest, hrest, hclass | ⟨async, hfunction, hasync⟩⟩
    · obtain ⟨r, rfl, rfl, hr⟩ := hx.cut hclass (by decide)
      exact Bool.or_eq_true_iff.2 (.inr (startsKeyword_iff.2 ⟨r, rfl, hr.endsWord ▸ hrest⟩))
    · rw [← List.append_assoc] at hfunction
      obtain ⟨r, rfl, rfl, hr⟩ := hx.cut hfunction (newline_notMem_asyncText hasync)
      rw [List.append_assoc]
      exact named_asyncText hasync (hr.endsWord ▸ hrest)

theorem IsExpression.not_anonymous (h : IsExpression (x ++ later)) (hx : LinePart x later) :
    anonymousFunction x = none ∧ anonymousClass x = none := by
  constructor
  · cases hfunction : anonymousFunction x with
    | none => rfl
    | some p =>
      obtain ⟨r, hbody, hne, hr⟩ := body_of_anonymousFunction hfunction
      obtain ⟨-, async, htext, hasync⟩ := exists_async_of_body hx hbody
      refine absurd ⟨r ++ later, hr.append hne later, .inr ⟨async, htext, ?_⟩⟩ h.undeclared
      intro g hg
      obtain ⟨hspace, hne⟩ := hasync g hg
      exact ⟨⟨.of_isSpace hspace, newline_notMem_of_isSpace hspace⟩, hne⟩
  · cases hclass : anonymousClass x with
    | none => rfl
    | some u =>
      obtain ⟨rfl, hne, hu⟩ := eq_of_anonymousClass hclass
      exact absurd ⟨u ++ later, hu.append hne later, .inl (List.append_assoc _ _ _)⟩ h.undeclared

def anonymousTail (mark : List Char) : List Char → Option (List Char × List Char)
  | '(' :: tail => some (mark ++ "function".toList, '(' :: tail)
  | '*' :: more =>
      match dropBlanks more with
      | '(' :: tail => some (mark ++ "function*".toList, '(' :: tail)
      | _ => none
  | _ => none

theorem anonymousFunction_asyncText (hasync : ∀ g ∈ async, IsSpace g ∧ g ≠ []) (r : List Char) :
    anonymousFunction (asyncText async ++ ("function".toList ++ r)) =
      anonymousTail (asyncText async) (dropBlanks r) := by
  have hbody := body_asyncText hasync r
  have hmark : (asyncText async ++ ("function".toList ++ r)).take
      ((asyncText async ++ ("function".toList ++ r)).length - ("function".toList ++ r).length) =
        asyncText async := by
    rw [List.length_append, Nat.add_sub_cancel, List.take_left']
    rfl
  dsimp only [anonymousFunction]
  rw [hbody, hmark, List.isPrefixOf?_eq_some_iff_append_eq.2 rfl]
  rfl

theorem declareAs_function {words t : List Char} (name : RootName)
    (h : anonymousFunction x = some (words, t)) :
    declareAs name x = words ++ ' ' :: name.text.toList ++ t := by
  rw [declareAs, h]

theorem head_asyncText (async : Option (List Char)) (r : List Char) :
    ∀ d ∈ (asyncText async ++ ("function".toList ++ r)).head?, d ≠ 'c' := by
  intro d hd
  cases async with
  | none =>
    obtain rfl := Option.some.inj hd
    decide
  | some g =>
    obtain rfl := Option.some.inj hd
    decide

theorem anonymousTail_cut (mark : List Char) (hgap : Trivia gap) (hstar : ∀ g ∈ star, Trivia g)
    (hr : LinePart r later) (hsplit : r ++ later = gap ++ (starText star ++ '(' :: tail)) :
    ((IsSpace gap ∧ ∀ g ∈ star, IsSpace g) ∧ ∃ t, t ++ later = tail ∧
      anonymousTail mark (dropBlanks r) =
        some (mark ++ ("function".toList ++ starText (star.map fun _ => [])), '(' :: t)) ∨
    (¬ (IsSpace gap ∧ ∀ g ∈ star, IsSpace g) ∧ anonymousTail mark (dropBlanks r) = none) := by
  have hcomment {u : List Char} (hu : ∀ d ∈ u.head?, d = '/') : anonymousTail mark u = none := by
    cases u with
    | nil => rfl
    | cons d u =>
      obtain rfl := hu d rfl
      rfl
  cases star with
  | none =>
    rcases hgap.cut hr hsplit (by decide) with ⟨hspace, t, -, hdrop, ht, -⟩ | ⟨hspace, hdrop, -⟩
    · left
      rw [hdrop]
      exact ⟨⟨hspace, by simp⟩, t, ht, by simp [anonymousTail, starText]⟩
    · exact .inr ⟨fun h => hspace h.1, hcomment hdrop⟩
  | some g =>
    rcases hgap.cut hr hsplit (by decide) with ⟨hspace, more, -, hdrop, hmore, hline⟩ |
      ⟨hspace, hdrop, -⟩
    · have hline : LinePart more later := LinePart.suffix (u := ['*']) hline (by decide)
      rw [hdrop]
      rcases (hstar g rfl).cut hline hmore (by decide) with ⟨hback, t, -, hlast, ht, -⟩ |
        ⟨hback, hlast, -⟩
      · left
        refine ⟨⟨hspace, by simpa using hback⟩, t, ht, ?_⟩
        have hword : "function*".toList = "function".toList ++ ['*'] := by decide
        simp only [anonymousTail, hlast, hword]
        rfl
      · right
        refine ⟨fun h => hback (h.2 g rfl), ?_⟩
        simp only [anonymousTail]
        generalize dropBlanks more = u at hlast
        cases u with
        | nil => rfl
        | cons d u =>
          obtain rfl := hlast d rfl
          rfl
    · exact .inr ⟨fun h => hspace h.1, hcomment hdrop⟩

theorem Trivia.endsWord_append (hgap : Trivia gap) (hu : gap = [] → endsWord u) :
    endsWord (gap ++ u) := by
  cases gap with
  | nil => exact hu rfl
  | cons d gap =>
    have hd : isWord d = false := by
      rcases hgap.head with hblank | rfl
      · exact isWord_of_isBlank hblank
      · decide
    simp [endsWord, hd]

theorem function_declared (name : RootName) (hasync : ∀ g ∈ async, IsSpace g ∧ g ≠ [])
    (hgap : Trivia gap) (hstar : ∀ g ∈ star, Trivia g) (hx : LinePart x later)
    (hsplit : x ++ later = (DefaultValue.functionValue async gap star tail).text) :
    (IsSpace gap ∧ (∀ g ∈ star, IsSpace g) →
      declareAs name x ++ later = (DefaultValue.functionValue async gap star tail).under name) ∧
    (¬ (IsSpace gap ∧ ∀ g ∈ star, IsSpace g) → declareAs name x = x) := by
  rw [DefaultValue.text_functionValue, ← List.append_assoc] at hsplit
  obtain ⟨r, rfl, hr, hline⟩ := hx.cut hsplit (newline_notMem_asyncText hasync)
  rw [List.append_assoc (asyncText async)]
  have hfunction := anonymousFunction_asyncText hasync r
  rcases anonymousTail_cut (asyncText async) hgap hstar hline hr with
    ⟨hspace, t, rfl, htail⟩ | ⟨hspace, htail⟩
  · refine ⟨fun _ => ?_, fun h => absurd hspace h⟩
    rw [declareAs_function name (hfunction.trans htail), DefaultValue.under_functionValue]
    simp only [List.append_assoc, List.cons_append]
  · refine ⟨fun h => absurd h hspace, fun _ => ?_⟩
    have hends : endsWord (starText star ++ '(' :: tail) := by cases star <;> rfl
    have hafter := hgap.endsWord_append fun _ => hends
    rw [← hr, hline.endsWord] at hafter
    exact declareAs_of_named name (named_asyncText hasync hafter) (hfunction.trans htail)
      (anonymousClass_of_head (head_asyncText async r))

end Functions

theorem anonymousClass_brace (h : dropBlanks r = '\x7b' :: u) :
    anonymousClass ("class".toList ++ r) = some r := by
  rw [anonymousClass, List.isPrefixOf?_eq_some_iff_append_eq.2 rfl]
  simp only [h]

theorem anonymousClass_extends (h : dropBlanks r = "extends".toList ++ u) (hr : startsBlank r)
    (hu : endsWord u) : anonymousClass ("class".toList ++ r) = some r := by
  rw [anonymousClass, List.isPrefixOf?_eq_some_iff_append_eq.2 rfl]
  simp only [h]
  split
  · rfl
  · rw [List.isPrefixOf?_eq_some_iff_append_eq.2 rfl]
    simp [hr, hu]

theorem class_declared (name : RootName) {heir : Bool} {tail : List Char} (hgap : Trivia gap)
    (hheir : heir → gap ≠ [] ∧ NameEnds tail) (hx : LinePart x later)
    (hsplit : x ++ later = (DefaultValue.classValue gap heir tail).text) :
    (IsSpace gap →
      declareAs name x ++ later = (DefaultValue.classValue gap heir tail).under name) ∧
    (¬ IsSpace gap → declareAs name x = x) := by
  obtain ⟨r, rfl, hr, hline⟩ := hx.cut hsplit (by decide)
  have hfunction : anonymousFunction ("class".toList ++ r) = none := by
    refine anonymousFunction_of_head fun d hd => ?_
    obtain rfl := Option.some.inj hd
    decide
  obtain ⟨c, more, hmark, hc⟩ :
      ∃ c more, heirText heir ++ tail = c :: more ∧ isBlank c = false := by
    cases heir with
    | false => exact ⟨'\x7b', tail, rfl, by decide⟩
    | true => exact ⟨'e', "xtends".toList ++ tail, rfl, by decide⟩
  rcases hgap.cut hline (hmark ▸ hr) hc with ⟨hspace, t, hword, hdrop, ht, hrest⟩ |
    ⟨hspace, hdrop, -⟩
  · refine ⟨fun _ => ?_, fun h => absurd hspace h⟩
    have hclass : anonymousClass ("class".toList ++ r) = some r := by
      cases heir with
      | false =>
        obtain rfl : '\x7b' = c := (List.cons.inj hmark).1
        exact anonymousClass_brace hdrop
      | true =>
        obtain ⟨hne, htail⟩ := hheir rfl
        have hextends : c :: t ++ later = "extends".toList ++ tail := by
          rw [List.cons_append, ht, ← hmark]
          rfl
        obtain ⟨after, hafter, rfl, hlast⟩ := hrest.cut hextends (by decide)
        have hends : endsWord after := by
          rw [← hlast.endsWord]
          exact endsWord_of_nameEnds htail
        have hblank : startsBlank r := by
          rw [hword]
          exact startsBlank_append hne (LaidLine.isBlank_of_isSpace hspace)
        exact anonymousClass_extends (hdrop.trans hafter) hblank hends
    rw [declareAs, hfunction, hclass, DefaultValue.under_classValue, ← hr]
    simp only [List.append_assoc]
  · refine ⟨fun h => absurd h hspace, fun _ => ?_⟩
    have hclass : anonymousClass ("class".toList ++ r) = none := by
      rw [anonymousClass, List.isPrefixOf?_eq_some_iff_append_eq.2 rfl]
      simp only
      generalize dropBlanks r = u at hdrop
      cases u with
      | nil => rfl
      | cons d u =>
        obtain rfl := hdrop d rfl
        rfl
    have hne : gap ≠ [] := by
      rintro rfl
      exact hspace (by simp [IsSpace])
    have hafter := hgap.endsWord_append (u := heirText heir ++ tail) fun hnil => absurd hnil hne
    rw [← hr, hline.endsWord] at hafter
    refine declareAs_of_named name ?_ hfunction hclass
    exact Bool.or_eq_true_iff.2 (.inr (startsKeyword_iff.2 ⟨r, rfl, hafter⟩))

theorem expression_declared (name : RootName) (hvalue : IsExpression (x ++ later))
    (hx : LinePart x later) :
    (¬ ReadsAsDeclaration (x ++ later) → declareAs name x = asVariable name x) ∧
    (ReadsAsDeclaration (x ++ later) → declareAs name x = x) := by
  rw [← isNamedDeclaration_iff hx]
  constructor
  · intro h
    exact declareAs_of_not_named name (by simpa using h)
  · intro h
    obtain ⟨hfunction, hclass⟩ := hvalue.not_anonymous hx
    exact declareAs_of_named name h hfunction hclass

theorem commentedAsync_declared (name : RootName) {star : Option (List Char)} {g tail : List Char}
    (hg : Trivia g) (hspace : ¬ IsSpace g) (hx : LinePart x later)
    (hsplit : x ++ later = (DefaultValue.functionValue (some g) gap star tail).text) :
    declareAs name x = asVariable name x := by
  rw [DefaultValue.text_functionValue, asyncText, Option.elim_some, List.append_assoc] at hsplit
  obtain ⟨r, rfl, hr, hline⟩ := hx.cut hsplit (by decide)
  have hdrop : ∀ d ∈ (dropBlanks r).head?, d = '/' := by
    rcases hg.cut hline hr (by decide : isBlank 'f' = false) with ⟨h, -⟩ | ⟨-, h, -⟩
    · exact absurd h hspace
    · exact h
  have hletter : ∀ d ∈ ("async".toList ++ r).head?, d ∉ ['c', 'f'] := by
    intro d hd
    obtain rfl := Option.some.inj hd
    decide
  have hbody : startsKeyword "function" ((afterWord "async" ("async".toList ++ r)).getD
      ("async".toList ++ r)) = false := by
    refine startsKeyword_of_head (c := 'f') rfl fun d hd => ?_
    rw [afterWord_append] at hd
    split at hd
    · obtain rfl := hdrop d hd
      decide
    · rintro rfl
      exact absurd (by decide) (hletter _ hd)
  refine declareAs_of_not_named name (Bool.or_eq_false_iff.2 ⟨hbody, ?_⟩)
  exact startsKeyword_of_head (c := 'c') rfl fun d hd heq => hletter d hd (by simp [heq])

namespace DefaultValue

theorem turned_of_plain (name : RootName) (hvalue : value.WellFormed) (hplain : value.Plain)
    (hx : LinePart x later) (hsplit : x ++ later = value.text) :
    value.Turned (some name) (declareAs name x ++ later) := by
  have hvariable (h : declareAs name x = asVariable name x) :
      value.Turned (some name) (declareAs name x ++ later) := by
    have hturned : value.Turned (some name) (asVariable name ([] ++ value.text)) :=
      .assigned name .nil
    rwa [List.nil_append, ← hsplit, asVariable_append, ← h] at hturned
  cases value with
  | functionValue async gap star tail =>
    obtain ⟨hasync, hgap, hstar⟩ := hvalue
    by_cases hspace : ∀ g ∈ async, IsSpace g
    · have hboth : ∀ g ∈ async, IsSpace g ∧ g ≠ [] := fun g hg => ⟨hspace g hg, (hasync g hg).2.1⟩
      rw [(function_declared name hboth hgap hstar hx hsplit).1 (hplain hspace)]
      exact .declared name rfl
    · cases async with
      | none => simp at hspace
      | some g =>
        refine hvariable (commentedAsync_declared name (hasync g rfl).1 ?_ hx hsplit)
        simpa using hspace
  | classValue gap heir tail =>
    rw [(class_declared name hvalue.1 hvalue.2 hx hsplit).1 hplain]
    exact .declared name rfl
  | expression text =>
    obtain rfl := hsplit
    exact hvariable ((expression_declared name hvalue hx).1 hplain)

theorem declareAs_of_not_plain (name : RootName) (hvalue : value.WellFormed)
    (hplain : ¬ value.Plain) (hx : LinePart x later) (hsplit : x ++ later = value.text) :
    declareAs name x = x := by
  cases value with
  | functionValue async gap star tail =>
    obtain ⟨hasync, hgap, hstar⟩ := hvalue
    obtain ⟨hspace, hnot⟩ := Classical.not_imp.1 hplain
    have hboth : ∀ g ∈ async, IsSpace g ∧ g ≠ [] := fun g hg => ⟨hspace g hg, (hasync g hg).2.1⟩
    exact (function_declared name hboth hgap hstar hx hsplit).2 hnot
  | classValue gap heir tail => exact (class_declared name hvalue.1 hvalue.2 hx hsplit).2 hplain
  | expression text =>
    obtain rfl := hsplit
    exact (expression_declared name hvalue hx).2 (Classical.not_not.1 hplain)

end DefaultValue

end LivePreview.Source
