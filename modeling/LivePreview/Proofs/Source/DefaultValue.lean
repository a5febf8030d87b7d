import LivePreview.Proofs.Source.ImportLine
import LivePreview.Proofs.Source.RootDeclaration

namespace LivePreview.Source

open LivePreview.Text

def lineTerminators : List Char :=
  ['\n', '\r', '\u2028', '\u2029']

inductive Trivia : List Char → Prop where
  | nil : Trivia []
  | blank {c : Char} {rest : List Char} : isBlank c → Trivia rest → Trivia (c :: rest)
  | lineComment {words rest : List Char} {c : Char} : (∀ d ∈ words, d ∉ lineTerminators) →
      c ∈ lineTerminators → Trivia rest → Trivia ('/' :: '/' :: (words ++ c :: rest))
  | blockComment {words rest : List Char} :
      (∀ u v, words ++ ['*', '/'] = u ++ '*' :: '/' :: v → v = []) → Trivia rest →
      Trivia ('/' :: '*' :: (words ++ '*' :: '/' :: rest))

def asyncText (async : Option (List Char)) : List Char :=
  async.elim [] fun gap => "async".toList ++ gap

def StartsDeclaration (ends separates : List Char → Prop) (text : List Char) : Prop :=
  ∃ rest, ends rest ∧ (text = "class".toList ++ rest ∨
    ∃ async, text = asyncText async ++ ("function".toList ++ rest) ∧
      ∀ g ∈ async, separates g ∧ g ≠ [])

structure IsExpression (text : List Char) : Prop where
  begins : ∃ c rest, text = c :: rest ∧ isBlank c = false
  uncommented : ¬ "//".toList <+: text ∧ ¬ "/*".toList <+: text
  undeclared : ¬ StartsDeclaration NameEnds (fun gap => Trivia gap ∧ '\n' ∉ gap) text

/-- An anonymous value with all that follows it in the program. The tail of a function is what
follows its opening parenthesis, that of a class what follows its opening brace or `extends`. -/
inductive DefaultValue where
  | functionValue (async : Option (List Char)) (gap : List Char) (star : Option (List Char))
      (tail : List Char)
  | classValue (gap : List Char) (heir : Bool) (tail : List Char)
  | expression (text : List Char)

def starText (star : Option (List Char)) : List Char :=
  star.elim [] fun gap => '*' :: gap

def heirText (heir : Bool) : List Char :=
  if heir then "extends".toList else ['\x7b']

def asVariable (name : RootName) (value : List Char) : List Char :=
  "var ".toList ++ (name.text.toList ++ (" = ".toList ++ value))

namespace DefaultValue

def text : DefaultValue → List Char
  | .functionValue async gap star tail =>
      asyncText async ++ ("function".toList ++ (gap ++ (starText star ++ '(' :: tail)))
  | .classValue gap heir tail => "class".toList ++ (gap ++ (heirText heir ++ tail))
  | .expression text => text

def WellFormed : DefaultValue → Prop
  | .functionValue async gap star _ =>
      (∀ g ∈ async, Trivia g ∧ g ≠ [] ∧ '\n' ∉ g) ∧ Trivia gap ∧ ∀ g ∈ star, Trivia g
  | .classValue gap heir tail => Trivia gap ∧ (heir → gap ≠ [] ∧ NameEnds tail)
  | .expression text => IsExpression text

def isDeclaration : DefaultValue → Bool
  | .expression _ => false
  | _ => true

def under (name : RootName) : DefaultValue → List Char
  | .functionValue async _ star tail =>
      asyncText async ++ ("function".toList ++ (starText (star.map fun _ => []) ++
        ' ' :: (name.text.toList ++ '(' :: tail)))
  | .classValue gap heir tail =>
      "class ".toList ++ (name.text.toList ++ (gap ++ (heirText heir ++ tail)))
  | .expression text => asVariable name text

inductive Turned (value : DefaultValue) : Option RootName → List Char → Prop where
  | declared (name : RootName) : value.isDeclaration → Turned value (some name) (value.under name)
  | assigned (name : RootName) {lead : List Char} :
      Trivia lead → Turned value (some name) (asVariable name (lead ++ value.text))
  | bare {lead : List Char} : Trivia lead → Turned value none (lead ++ value.text)

end DefaultValue

variable {value : DefaultValue} {name other : RootName} {gap u v w : List Char} {c : Char}

theorem isBlank_of_lineTerminator (h : c ∈ lineTerminators) : isBlank c :=
  List.all_eq_true.1 (by decide : lineTerminators.all isBlank) c h

namespace Trivia

theorem head (h : Trivia (c :: u)) : isBlank c ∨ c = '/' := by
  cases h with
  | blank hc => exact .inl hc
  | lineComment => exact .inr rfl
  | blockComment => exact .inr rfl

theorem last (h : Trivia u) (hc : u.getLast? = some c) : isBlank c ∨ c = '/' := by
  have hcons {d : Char} {rest : List Char} (hd : isBlank d ∨ d = '/')
      (ih : rest.getLast? = some c → isBlank c ∨ c = '/')
      (hlast : (d :: rest).getLast? = some c) : isBlank c ∨ c = '/' := by
    cases rest with
    | nil => exact Option.some.inj hlast ▸ hd
    | cons e rest => exact ih (by rwa [List.getLast?_cons_cons] at hlast)
  induction h with
  | nil => cases hc
  | blank hblank _ ih => exact hcons (.inl hblank) ih hc
  | @lineComment words rest d _ hd _ ih =>
    rw [← List.cons_append, ← List.cons_append, List.getLast?_append_cons] at hc
    exact hcons (.inl (isBlank_of_lineTerminator hd)) ih hc
  | @blockComment words rest _ _ ih =>
    rw [← List.cons_append, ← List.cons_append, List.getLast?_append_cons,
      List.getLast?_cons_cons] at hc
    exact hcons (.inr rfl) ih hc

theorem of_append_blank (h : Trivia (u ++ v)) (hu : ∀ c ∈ u, isBlank c) : Trivia v := by
  induction u with
  | nil => exact h
  | cons c u ih =>
    have hc := hu c List.mem_cons_self
    refine ih ?_ fun d hd => hu d (List.mem_cons_of_mem c hd)
    rw [List.cons_append] at h
    generalize u ++ v = rest at h ⊢
    cases h with
    | blank _ hrest => exact hrest
    | lineComment => exact absurd hc (by decide)
    | blockComment => exact absurd hc (by decide)

theorem of_isSpace (h : IsSpace u) : Trivia u := by
  induction u with
  | nil => exact .nil
  | cons c u ih =>
    exact .blank (h c List.mem_cons_self).1 (ih fun d hd => h d (List.mem_cons_of_mem c hd))

end Trivia

def EndsLikeRoot (text : List Char) : Prop :=
  ∃ c ∈ ['p', 'w', 't', 'e'], text.getLast? = some c

theorem endsLikeRoot_append (u : List Char) (name : RootName) :
    EndsLikeRoot (u ++ name.text.toList) := by
  have hlast : ∃ c ∈ ['p', 'w', 't', 'e'], name.text.toList.getLast? = some c := by
    cases name with
    | app => exact ⟨'p', by decide, rfl⟩
    | preview => exact ⟨'w', by decide, rfl⟩
    | component => exact ⟨'t', by decide, rfl⟩
    | page => exact ⟨'e', by decide, rfl⟩
  obtain ⟨c, hc, hlast⟩ := hlast
  exact ⟨c, hc, by rw [List.getLast?_append, hlast, Option.some_or]⟩

theorem not_endsLikeRoot_append (u : List Char) (hv : v.getLast? = some c)
    (hc : c ∉ ['p', 'w', 't', 'e']) : ¬ EndsLikeRoot (u ++ v) := by
  rintro ⟨d, hd, hlast⟩
  rw [List.getLast?_append, hv, Option.some_or] at hlast
  exact hc (Option.some.inj hlast ▸ hd)

theorem Trivia.not_endsLikeRoot (h : Trivia gap) (hu : ¬ EndsLikeRoot u) :
    ¬ EndsLikeRoot (u ++ gap) := by
  cases hgap : gap.getLast? with
  | none => rwa [List.getLast?_eq_none_iff.1 hgap, List.append_nil]
  | some c =>
    refine not_endsLikeRoot_append u hgap fun hc => ?_
    have hletters : ['p', 'w', 't', 'e'].all fun c => !isBlank c && c != '/' := by decide
    have hletter := List.all_eq_true.1 hletters c hc
    rcases h.last hgap with hblank | rfl
    · simp [hblank] at hletter
    · simp at hletter

theorem rootName_text_injective (h : name.text.toList = other.text.toList) : name = other := by
  revert h
  cases name <;> cases other <;> decide

theorem takeWhile_rootName (hc : isWord c = false) (rest : List Char) :
    (name.text.toList ++ c :: rest).takeWhile isWord = name.text.toList := by
  have hall : ∀ d ∈ name.text.toList, isWord d := by
    cases name <;> exact List.all_eq_true.1 (by decide)
  rw [List.takeWhile_append_of_pos hall, List.takeWhile_cons_of_neg (by simp [hc]), List.append_nil]

theorem asVariable_append (name : RootName) (u v : List Char) :
    asVariable name (u ++ v) = asVariable name u ++ v := by
  simp only [asVariable, List.append_assoc]

theorem name_of_asVariable (h : asVariable name u = asVariable other v) : name = other := by
  have hnames := List.append_cancel_left h
  have hletters (name : RootName) (rest : List Char) :
      (name.text.toList ++ (" = ".toList ++ rest)).takeWhile isWord = name.text.toList :=
    takeWhile_rootName (by decide) _
  refine rootName_text_injective ?_
  rw [← hletters name u, ← hletters other v, hnames]

namespace DefaultValue

section

variable {async star : Option (List Char)} {heir : Bool} {tail : List Char}

theorem text_functionValue : (functionValue async gap star tail).text =
    asyncText async ++ ("function".toList ++ (gap ++ (starText star ++ '(' :: tail))) :=
  rfl

theorem under_functionValue : (functionValue async gap star tail).under name =
    asyncText async ++ ("function".toList ++ (starText (star.map fun _ => []) ++
      ' ' :: (name.text.toList ++ '(' :: tail))) :=
  rfl

theorem text_classValue :
    (classValue gap heir tail).text = "class".toList ++ (gap ++ (heirText heir ++ tail)) :=
  rfl

theorem under_classValue : (classValue gap heir tail).under name =
    "class ".toList ++ (name.text.toList ++ (gap ++ (heirText heir ++ tail))) :=
  rfl

end

theorem append_text_ne_append_under (hdeclares : value.isDeclaration) (hvalue : value.WellFormed)
    (u v : List Char) (name : RootName) : u ++ value.text ≠ v ++ value.under name := by
  intro heq
  cases value with
  | expression => cases hdeclares
  | functionValue async gap star tail =>
    obtain ⟨-, hgap, hstar⟩ := hvalue
    have hlast : "function".toList.getLast? = some 'n' := rfl
    rw [text_functionValue, under_functionValue] at heq
    -- of the word only the last letter counts
    generalize "function".toList = word at heq hlast
    have hends : u ++ asyncText async ++ word ++ gap ++ starText star =
        v ++ asyncText async ++ word ++ starText (star.map fun _ => []) ++ [' '] ++
          name.text.toList := by
      refine List.append_cancel_right (?_ : _ ++ '(' :: tail = _ ++ '(' :: tail)
      simpa using heq
    have hfront : ¬ EndsLikeRoot (u ++ asyncText async ++ word ++ gap) :=
      hgap.not_endsLikeRoot (not_endsLikeRoot_append _ hlast (by decide))
    have hall : ¬ EndsLikeRoot (u ++ asyncText async ++ word ++ gap ++ starText star) := by
      cases star with
      | none => rwa [starText, Option.elim_none, List.append_nil]
      | some g =>
        have hmark : ¬ EndsLikeRoot (u ++ asyncText async ++ word ++ gap ++ ['*']) :=
          not_endsLikeRoot_append _ rfl (by decide : '*' ∉ _)
        have hafter := (hstar g rfl).not_endsLikeRoot hmark
        rwa [List.append_assoc _ ['*']] at hafter
    rw [hends] at hall
    exact hall (endsLikeRoot_append _ name)
  | classValue gap heir tail =>
    have hlast : "class".toList.getLast? = some 's' := rfl
    rw [text_classValue, under_classValue] at heq
    generalize "class".toList = word at heq hlast
    generalize "class ".toList = words at heq
    have hends : u ++ word = v ++ words ++ name.text.toList := by
      refine List.append_cancel_right (?_ : _ ++ (gap ++ (heirText heir ++ tail)) =
        _ ++ (gap ++ (heirText heir ++ tail)))
      simpa using heq
    have hclass : ¬ EndsLikeRoot (u ++ word) := not_endsLikeRoot_append _ hlast (by decide)
    rw [hends] at hclass
    exact hclass (endsLikeRoot_append _ name)

theorem under_injective (h : value.under name = value.under other) : name = other := by
  cases value with
  | functionValue async gap star tail =>
    have hnames := List.append_cancel_left (List.append_cancel_left (List.append_cancel_left h))
    have hletters := congrArg (List.takeWhile isWord) (List.cons.inj hnames).2
    rw [takeWhile_rootName (by decide), takeWhile_rootName (by decide)] at hletters
    exact rootName_text_injective hletters
  | classValue gap heir tail =>
    have hnames := List.append_cancel_left h
    exact rootName_text_injective (List.append_cancel_right hnames)
  | expression text => exact name_of_asVariable h

theorem Turned.answer_unique {answer answer' : Option RootName} (hvalue : value.WellFormed)
    (h : value.Turned answer u) (h' : value.Turned answer' u) : answer = answer' := by
  have hplain (name : RootName) {lead before : List Char} (hlead : Trivia lead)
      (heq : asVariable name (before ++ value.text) = lead ++ value.text) : False := by
    rw [asVariable_append] at heq
    obtain rfl := List.append_cancel_right heq
    exact hlead.head.elim (by decide) (by decide)
  cases h with
  | declared name hdeclares =>
    have hnot := append_text_ne_append_under hdeclares hvalue
    generalize hu : value.under name = u at h'
    cases h' with
    | declared other => exact congrArg some (under_injective hu)
    | assigned other =>
      rw [asVariable_append] at hu
      exact absurd hu.symm (hnot _ [] name)
    | bare => exact absurd hu.symm (hnot _ [] name)
  | @assigned name lead hlead =>
    generalize hu : asVariable name (lead ++ value.text) = u at h'
    cases h' with
    | declared other hdeclares =>
      rw [asVariable_append] at hu
      exact absurd hu (append_text_ne_append_under hdeclares hvalue _ [] other)
    | assigned other => exact congrArg some (name_of_asVariable hu)
    | bare hlead' => exact (hplain name hlead' hu).elim
  | @bare lead hlead =>
    generalize hu : lead ++ value.text = u at h'
    cases h' with
    | declared other hdeclares =>
      exact absurd hu (append_text_ne_append_under hdeclares hvalue _ [] other)
    | assigned other => exact (hplain other hlead hu.symm).elim
    | bare => rfl

end DefaultValue

end LivePreview.Source
