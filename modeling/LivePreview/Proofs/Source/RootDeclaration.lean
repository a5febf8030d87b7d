import Mathlib.Data.List.Basic
import LivePreview.Source.RootName
import LivePreview.Proofs.Source.ExportLine
import LivePreview.Proofs.Source.ModuleSyntax

/-!
Which root names a program declares, and which of them the search for a free name finds. The search
does not read declarations: it looks for a declaring keyword that a root name follows directly,
anywhere in the text.
-/

namespace LivePreview.Source

open LivePreview.Text

structure Binding where
  before : List Char
  name : List Char

/-- A declaration at the top level of a program. A function or a class binds one name, a variable
declaration as many as it has, patterns included; what follows the last name is the tail. -/
structure TopDeclaration where
  keyword : String
  bindings : List Binding
  tail : List Char
  isKeyword : keyword ∈ declaringKeywords := by decide

def TopDeclaration.text (declaration : TopDeclaration) : List Char :=
  declaration.keyword.toList ++ declaration.bindings.flatMap (fun b => b.before ++ b.name)
    ++ declaration.tail

inductive OutlinePart where
  | declaration (whole : TopDeclaration)
  | other (text : List Char)

namespace OutlinePart

def text : OutlinePart → List Char
  | .declaration whole => whole.text
  | .other text => text

def names : OutlinePart → List (List Char)
  | .declaration whole => whole.bindings.map (·.name)
  | .other _ => []

end OutlinePart

abbrev Outline := List OutlinePart

namespace Outline

def text (outline : Outline) : List Char :=
  outline.flatMap OutlinePart.text

def Declares (outline : Outline) (name : RootName) : Prop :=
  name.text.toList ∈ outline.flatMap OutlinePart.names

instance (outline : Outline) (name : RootName) : Decidable (outline.Declares name) :=
  inferInstanceAs (Decidable (_ ∈ _))

end Outline

def NameGap (gap : List Char) : Prop :=
  ∃ front star back, gap = front ++ star ++ back ∧ (star = [] ∨ star = ['*']) ∧ back ≠ [] ∧
    (∀ c ∈ front, isBlank c) ∧ ∀ c ∈ back, isBlank c

def EndsOutsideWord (before : List Char) : Prop :=
  ∀ c, before.getLast? = some c → isWord c = false

/-- The text has a declaring keyword which the name follows directly. -/
def Mentions (text : List Char) (name : RootName) : Prop :=
  ∃ before keyword gap after,
    text = before ++ (keyword.toList ++ (gap ++ (name.text.toList ++ after))) ∧
    keyword ∈ declaringKeywords ∧ EndsOutsideWord before ∧ NameGap gap ∧ endsWord after

def IsFirstFree (taken : RootName → Prop) (name : RootName) : Prop :=
  ∃ before after, RootName.all = before ++ name :: after ∧ ¬ taken name ∧
    ∀ other ∈ before, taken other

variable {name other : RootName} {taken : RootName → Prop} {cs rest : List Char}

theorem mem_all (name : RootName) : name ∈ RootName.all := by
  cases name <;> decide

theorem exists_rootName_cons (name : RootName) : ∃ c cs, name.text.toList = c :: cs ∧
    isBlank c = false ∧ c ≠ '*' := by
  cases name with
  | app => exact ⟨'A', ['p', 'p'], rfl, by decide, by decide⟩
  | preview => exact ⟨'P', ['r', 'e', 'v', 'i', 'e', 'w'], rfl, by decide, by decide⟩
  | component => exact ⟨'C', ['o', 'm', 'p', 'o', 'n', 'e', 'n', 't'], rfl, by decide, by decide⟩
  | page => exact ⟨'P', ['a', 'g', 'e'], rfl, by decide, by decide⟩

theorem isFirstFree_iff {p : RootName → Bool} (h : ∀ name, p name = true ↔ ¬ taken name) :
    IsFirstFree taken name ↔ RootName.all.find? p = some name := by
  simp only [IsFirstFree, List.find?_eq_some_iff_append, h, Bool.not_eq_true', ← Bool.not_eq_true,
    not_not]
  constructor
  · rintro ⟨before, after, hall, hname, hbefore⟩
    exact ⟨hname, before, after, hall, hbefore⟩
  · rintro ⟨hname, before, after, hall, hbefore⟩
    exact ⟨before, after, hall, hname, hbefore⟩

theorem IsFirstFree.unique (h : IsFirstFree taken name) (hother : IsFirstFree taken other) :
    name = other := by
  classical
  have hfree : ∀ name, decide (¬ taken name) = true ↔ ¬ taken name := fun _ => decide_eq_true_iff
  have hfound := (isFirstFree_iff hfree).1 h
  exact Option.some.inj (hfound.symm.trans ((isFirstFree_iff hfree).1 hother))

theorem IsFirstFree.not_taken (h : IsFirstFree taken name) : ¬ taken name := by
  obtain ⟨-, -, -, hname, -⟩ := h
  exact hname

theorem afterKeywordGap_eq_some (h : afterKeywordGap cs = some rest) :
    ∃ gap, cs = gap ++ rest ∧ NameGap gap := by
  have hsplit := takeWhile_append_dropBlanks cs
  unfold afterKeywordGap at h
  split at h
  · rename_i more hmore
    split at h
    · rename_i hblank
      obtain rfl := Option.some.inj h
      refine ⟨cs.takeWhile isBlank ++ ['*'] ++ more.takeWhile isBlank, ?_, _, _, _, rfl, .inr rfl,
        takeWhile_ne_nil hblank, fun _ => isBlank_of_mem_takeWhile,
        fun _ => isBlank_of_mem_takeWhile⟩
      rw [List.append_assoc, takeWhile_append_dropBlanks, List.append_assoc, List.singleton_append,
        ← hmore, hsplit]
    · cases h
  · split at h
    · rename_i hblank
      obtain rfl := Option.some.inj h
      exact ⟨cs.takeWhile isBlank, hsplit.symm, [], [], _, rfl, .inl rfl, takeWhile_ne_nil hblank,
        by simp, fun _ => isBlank_of_mem_takeWhile⟩
    · cases h

theorem startsBlank_append {gap : List Char} (hne : gap ≠ []) (h : ∀ c ∈ gap, isBlank c) :
    startsBlank (gap ++ rest) := by
  obtain ⟨c, cs, rfl⟩ := List.exists_cons_of_ne_nil hne
  exact h c List.mem_cons_self

theorem afterKeywordGap_append {gap : List Char} {c : Char} (hc : isBlank c = false)
    (hstar : c ≠ '*') (h : NameGap gap) : afterKeywordGap (gap ++ c :: cs) = some (c :: cs) := by
  have hkept : dropBlanks (c :: cs) = c :: cs := by simp [dropBlanks, hc]
  obtain ⟨front, star, back, rfl, rfl | rfl, hne, hfront, hback⟩ := h
  · have hall : ∀ d ∈ front ++ back, isBlank d := by
      intro d hd
      exact (List.mem_append.1 hd).elim (hfront d) (hback d)
    have hblank : startsBlank (front ++ back ++ c :: cs) :=
      startsBlank_append (List.append_ne_nil_of_right_ne_nil front hne) hall
    rw [List.append_nil, afterKeywordGap, dropBlanks_append_of_all hall, hkept]
    split
    · rename_i hcons
      exact absurd (List.cons.inj hcons).1 hstar
    · exact if_pos hblank
  · have hblank : startsBlank (back ++ c :: cs) := startsBlank_append hne hback
    have hstarKept (more : List Char) : dropBlanks ('*' :: more) = '*' :: more := by
      rfl
    rw [afterKeywordGap, List.append_assoc, List.append_assoc, dropBlanks_append_of_all hfront,
      List.singleton_append, hstarKept]
    simp only [hblank, if_true, dropBlanks_append_of_all hback, hkept]

theorem follows_iff :
    name.follows cs ↔ ∃ after, cs = name.text.toList ++ after ∧ endsWord after := by
  unfold RootName.follows
  constructor
  · intro h
    split at h
    · rename_i after hafter
      exact ⟨after, (List.append_eq_of_isPrefixOf?_eq_some hafter).symm, h⟩
    · cases h
  · rintro ⟨after, rfl, hafter⟩
    rw [List.isPrefixOf?_eq_some_iff_append_eq.2 rfl]
    exact hafter

theorem declaredAt_iff : name.declaredAt cs ↔ ∃ keyword ∈ declaringKeywords, ∃ gap after,
    cs = keyword.toList ++ (gap ++ (name.text.toList ++ after)) ∧ NameGap gap ∧ endsWord after := by
  simp only [RootName.declaredAt, List.any_eq_true]
  constructor
  · rintro ⟨keyword, hkeyword, h⟩
    split at h
    · rename_i rest hrest
      obtain ⟨named, hnamed, hfollows⟩ := (Option.any_eq_true _ _).1 h
      obtain ⟨gap, rfl, hgap⟩ := afterKeywordGap_eq_some hnamed
      obtain ⟨after, rfl, hafter⟩ := follows_iff.1 hfollows
      have hcs := (List.append_eq_of_isPrefixOf?_eq_some hrest).symm
      exact ⟨keyword, hkeyword, gap, after, hcs, hgap, hafter⟩
    · cases h
  · rintro ⟨keyword, hkeyword, gap, after, rfl, hgap, hafter⟩
    obtain ⟨c, text, htext, hblank, hstar⟩ := exists_rootName_cons name
    have hnamed : afterKeywordGap (gap ++ (name.text.toList ++ after)) =
        some (name.text.toList ++ after) := by
      rw [htext]
      exact afterKeywordGap_append hblank hstar hgap
    refine ⟨keyword, hkeyword, ?_⟩
    rw [List.isPrefixOf?_eq_some_iff_append_eq.2 rfl]
    simp only [hnamed, Option.any_some]
    exact follows_iff.2 ⟨after, rfl, hafter⟩

theorem declaredIn_iff {inWord : Bool} : name.declaredIn inWord cs ↔ ∃ before rest,
    cs = before ++ rest ∧ (before = [] → inWord = false) ∧ EndsOutsideWord before ∧
      name.declaredAt rest := by
  induction cs generalizing inWord with
  | nil =>
    constructor
    · intro h
      cases h
    · rintro ⟨before, rest, hsplit, -, -, hat⟩
      obtain ⟨rfl, rfl⟩ := List.append_eq_nil_iff.1 hsplit.symm
      cases name <;> exact absurd hat (by decide)
  | cons c cs ih =>
    rw [RootName.declaredIn, Bool.or_eq_true, Bool.and_eq_true, Bool.not_eq_true', ih]
    constructor
    · rintro (⟨hstart, hat⟩ | ⟨before, rest, rfl, hstart, hbefore, hat⟩)
      · exact ⟨[], c :: cs, rfl, fun _ => hstart, by simp [EndsOutsideWord], hat⟩
      · refine ⟨c :: before, rest, rfl, by simp, ?_, hat⟩
        intro d hd
        cases before with
        | nil =>
          obtain rfl : c = d := by simpa using hd
          exact hstart rfl
        | cons e before => exact hbefore d (by simpa using hd)
    · rintro ⟨before, rest, hsplit, hstart, hbefore, hat⟩
      cases before with
      | nil =>
        obtain rfl := hsplit
        exact .inl ⟨hstart rfl, hat⟩
      | cons d before =>
        obtain ⟨rfl, rfl⟩ := List.cons.inj hsplit
        refine .inr ⟨before, rest, rfl, ?_, ?_, hat⟩
        · rintro rfl
          exact hbefore c rfl
        · intro e he
          cases before with
          | nil => cases he
          | cons d before => exact hbefore e (by simpa using he)

theorem declaredIn_iff_mentions : name.declaredIn false cs ↔ Mentions cs name := by
  simp only [declaredIn_iff, declaredAt_iff, Mentions]
  constructor
  · rintro ⟨before, _, rfl, -, hbefore, keyword, hkeyword, gap, after, rfl, hgap, hafter⟩
    exact ⟨before, keyword, gap, after, rfl, hkeyword, hbefore, hgap, hafter⟩
  · rintro ⟨before, keyword, gap, after, rfl, hkeyword, hbefore, hgap, hafter⟩
    exact ⟨before, _, rfl, by simp, hbefore, keyword, hkeyword, gap, after, rfl, hgap, hafter⟩

theorem freeRootName_eq_some_iff :
    freeRootName cs = some name ↔ IsFirstFree (Mentions cs) name := by
  refine (isFirstFree_iff fun name => ?_).symm
  rw [Bool.not_eq_true', ← Bool.not_eq_true, declaredIn_iff_mentions]

theorem freeRootName_eq_none_iff : freeRootName cs = none ↔ ∀ name, Mentions cs name := by
  simp only [freeRootName, List.find?_eq_none, mem_all, forall_const, Bool.not_eq_true',
    Bool.not_eq_false, declaredIn_iff_mentions]

end LivePreview.Source
