import LivePreview.Proofs.Text.Occurrence

/-!
Import declarations as they stand in a program. A declaration is a row of tokens; it is laid out
over lines of its own, with blanks, line ends and line comments between the tokens.
-/

namespace LivePreview.Source

open LivePreview.Text

structure Identifier where
  chars : List Char
  nonempty : chars ≠ []
  isName : ∀ c ∈ chars, isNameChar c

namespace Identifier

def importWord : Identifier :=
  ⟨['i', 'm', 'p', 'o', 'r', 't'], by decide, List.all_eq_true.1 (by decide)⟩

def exportWord : Identifier :=
  ⟨['e', 'x', 'p', 'o', 'r', 't'], by decide, List.all_eq_true.1 (by decide)⟩

def fromWord : Identifier :=
  ⟨['f', 'r', 'o', 'm'], by decide, List.all_eq_true.1 (by decide)⟩

def asWord : Identifier :=
  ⟨['a', 's'], by decide, List.all_eq_true.1 (by decide)⟩

/-- The words that no variable can be called by, as far as they begin a declaration. -/
def Reserved (name : Identifier) : Prop :=
  name.chars = importWord.chars ∨ name.chars = exportWord.chars

end Identifier

/-- What stands between the quotes is arbitrary; it may hold the quotes themselves. -/
structure ModuleName where
  quote : Char
  text : List Char
  isQuote : quote = '\'' ∨ quote = '"'
  oneLine : '\n' ∉ text

def ModuleName.Unquoted (name : ModuleName) : Prop :=
  '\'' ∉ name.text ∧ '"' ∉ name.text

inductive Token where
  | word (name : Identifier)
  | comma
  | star
  | openBrace
  | closeBrace
  | semicolon
  | literal (name : ModuleName)

namespace Token

def text : Token → List Char
  | .word name => name.chars
  | .comma => [',']
  | .star => ['*']
  | .openBrace => ['\x7b']
  | .closeBrace => ['\x7d']
  | .semicolon => [';']
  | .literal name => name.quote :: (name.text ++ [name.quote])

def isWord : Token → Bool
  | .word _ => true
  | _ => false

end Token

structure Specifier where
  name : Identifier
  renamed : Option Identifier := none

inductive NameList where
  | nil
  | last (specifier : Specifier)
  | cons (specifier : Specifier) (rest : NameList)

inductive Members where
  | all (name : Identifier) (free : ¬ name.Reserved)
  | listed (names : NameList)

inductive Clause where
  | default (name : Identifier) (free : ¬ name.Reserved)
  | named (members : Members)
  | both (name : Identifier) (free : ¬ name.Reserved) (members : Members)

/-- Without a clause the module is imported for its effects. -/
structure ImportDeclaration where
  clause : Option Clause
  source : ModuleName
  semicolon : Bool

def Specifier.tokens (specifier : Specifier) : List Token :=
  .word specifier.name :: specifier.renamed.elim [] fun name => [.word .asWord, .word name]

def NameList.tokens : NameList → List Token
  | .nil => []
  | .last specifier => specifier.tokens
  | .cons specifier rest => specifier.tokens ++ .comma :: rest.tokens

def Members.tokens : Members → List Token
  | .all name _ => [.star, .word .asWord, .word name]
  | .listed names => .openBrace :: names.tokens ++ [.closeBrace]

def Clause.tokens : Clause → List Token
  | .default name _ => [.word name]
  | .named members => members.tokens
  | .both name _ members => .word name :: .comma :: members.tokens

namespace ImportDeclaration

def ending (declaration : ImportDeclaration) : List Token :=
  .literal declaration.source :: if declaration.semicolon then [.semicolon] else []

def binding (declaration : ImportDeclaration) : List Token :=
  declaration.clause.elim [] fun clause => clause.tokens ++ [.word .fromWord]

def tail (declaration : ImportDeclaration) : List Token :=
  declaration.binding ++ declaration.ending

def tokens (declaration : ImportDeclaration) : List Token :=
  .word .importWord :: declaration.tail

end ImportDeclaration

def Token.isListed : Token → Bool
  | .word _ => true
  | .comma => true
  | _ => false

theorem NameList.isListed_of_mem (names : NameList) {token : Token} (h : token ∈ names.tokens) :
    token.isListed := by
  have hspecifier : ∀ specifier : Specifier, ∀ t ∈ specifier.tokens, t.isListed := by
    rintro ⟨name, renamed⟩ t ht
    cases renamed with
    | none =>
      rw [List.mem_singleton.1 ht]
      rfl
    | some other =>
      simp only [Specifier.tokens, Option.elim_some, List.mem_cons, List.not_mem_nil, or_false] at ht
      rcases ht with rfl | rfl | rfl <;> rfl
  induction names with
  | nil => cases h
  | last specifier => exact hspecifier specifier token h
  | cons specifier rest ih =>
    rcases List.mem_append.1 h with h | h
    · exact hspecifier specifier token h
    · rcases List.mem_cons.1 h with rfl | h
      · rfl
      · exact ih h

theorem not_reserved_fromWord : ¬ Identifier.fromWord.Reserved := by
  rintro (h | h) <;> cases h

theorem not_reserved_asWord : ¬ Identifier.asWord.Reserved := by
  rintro (h | h) <;> cases h

namespace ImportDeclaration

inductive Lead : List Token → Prop where
  | none : Lead []
  | default {name : Identifier} : ¬ name.Reserved → Lead [.word name, .comma]

def Listless (tokens : List Token) : Prop :=
  .openBrace ∉ tokens ∧ .closeBrace ∉ tokens ∧ ∀ name, .word name ∈ tokens → ¬ name.Reserved

variable {declaration : ImportDeclaration} {before after : List Token}

theorem listless_ending (declaration : ImportDeclaration) : Listless declaration.ending := by
  unfold Listless ending
  split <;> simp

theorem listless_fromWord : Listless [.word .fromWord] := by
  simp [Listless, not_reserved_fromWord]

theorem listless_append (hb : Listless before) (ha : Listless after) :
    Listless (before ++ after) := by
  simp only [Listless, List.mem_append, not_or] at *
  refine ⟨⟨hb.1, ha.1⟩, ⟨hb.2.1, ha.2.1⟩, ?_⟩
  rintro name (h | h)
  · exact hb.2.2 name h
  · exact ha.2.2 name h

theorem Lead.listless (h : Lead before) : Listless before := by
  cases h with
  | none => simp [Listless]
  | default free => simp [Listless, free]

theorem tail_cases (declaration : ImportDeclaration) :
    Listless declaration.tail ∨ ∃ lead, ∃ names : NameList, Lead lead ∧
      declaration.tail = lead ++ .openBrace ::
        (names.tokens ++ .closeBrace :: .word .fromWord :: declaration.ending) := by
  have hending := listless_ending declaration
  have hfrom := listless_fromWord
  obtain ⟨clause, source, semicolon⟩ := declaration
  cases clause with
  | none => exact .inl hending
  | some clause =>
    cases clause with
    | default name free =>
      have hname : Listless [.word name] := by simp [Listless, free]
      exact .inl (listless_append (listless_append hname hfrom) hending)
    | named members =>
      cases members with
      | all name free =>
        have hall : Listless (Members.all name free).tokens := by
          simp [Listless, Members.tokens, free, not_reserved_asWord]
        exact .inl (listless_append (listless_append hall hfrom) hending)
      | listed names =>
        exact .inr ⟨[], names, .none, by simp [tail, binding, Clause.tokens, Members.tokens]⟩
    | both name free members =>
      cases members with
      | all other otherFree =>
        have hall : Listless (Clause.both name free (.all other otherFree)).tokens := by
          simp [Listless, Clause.tokens, Members.tokens, free, otherFree, not_reserved_asWord]
        exact .inl (listless_append (listless_append hall hfrom) hending)
      | listed names =>
        exact .inr ⟨_, names, .default free, by simp [tail, binding, Clause.tokens, Members.tokens]⟩

theorem literal_notMem_binding (declaration : ImportDeclaration) (name : ModuleName) :
    .literal name ∉ declaration.binding := by
  have hnames : ∀ names : NameList, .literal name ∉ names.tokens := fun names h =>
    Bool.false_ne_true (names.isListed_of_mem h)
  have hmembers : ∀ members : Members, .literal name ∉ members.tokens := by
    intro members
    cases members with
    | all => simp [Members.tokens]
    | listed names => simp [Members.tokens, hnames]
  obtain ⟨clause, source, semicolon⟩ := declaration
  cases clause with
  | none => simp [binding]
  | some clause => cases clause <;> simp [binding, Clause.tokens, hmembers]

theorem closeBrace_mem_binding (h : .openBrace ∈ declaration.binding) :
    .closeBrace ∈ declaration.binding := by
  rcases tail_cases declaration with hnone | ⟨lead, names, -, htail⟩
  · exact absurd (List.mem_append_left declaration.ending h) hnone.1
  · have hbinding : declaration.binding =
        lead ++ .openBrace :: (names.tokens ++ [.closeBrace, .word .fromWord]) :=
      List.append_cancel_right (by simpa [tail] using htail)
    rw [hbinding]
    simp

theorem literal_notMem_after_source (h : declaration.ending = .literal declaration.source :: after)
    (name : ModuleName) : .literal name ∉ after := by
  obtain ⟨-, rfl⟩ := List.cons.inj h
  split <;> simp

theorem ending_of_lower {name : ModuleName} (h : declaration.tail = before ++ after)
    (hliteral : .literal name ∈ after) : ∃ inner, after = inner ++ declaration.ending ∧
      ∀ name, .literal name ∉ inner := by
  obtain ⟨more, hending⟩ : ∃ more, declaration.ending = .literal declaration.source :: more :=
    ⟨_, rfl⟩
  rw [tail, hending] at h
  rcases append_eq_append_cons_cases h.symm with ⟨w, rfl, rfl⟩ | ⟨inner, hinner, rfl⟩
  · refine absurd (List.mem_append_right w hliteral) (literal_notMem_after_source hending name)
  · refine ⟨inner, by rw [hending], fun name hmem => ?_⟩
    refine declaration.literal_notMem_binding name ?_
    rw [hinner]
    exact List.mem_append_right before hmem

theorem reserved_in_list {name : Identifier} (h : declaration.tail = before ++ .word name :: after)
    (hname : name.Reserved) :
    ∃ names rest, after = names ++ .closeBrace :: rest ∧ (∀ t ∈ names, t.isListed) ∧
      .openBrace ∉ rest := by
  rcases tail_cases declaration with hnone | ⟨lead, names, hlead, htail⟩
  · rw [h] at hnone
    exact absurd hname (hnone.2.2 name (by simp))
  · rw [htail] at h
    rcases append_eq_append_cons_cases h with ⟨w, rfl, -⟩ | ⟨w, rfl, hw⟩
    · exact absurd hname (hlead.listless.2.2 name (by simp))
    · cases w with
      | nil => simp at hw
      | cons t w =>
        obtain ⟨-, hw⟩ := List.cons.inj hw
        rcases append_eq_append_cons_cases hw with ⟨inner, hinner, rfl⟩ | ⟨outer, -, houter⟩
        · refine ⟨inner, _, rfl, fun t ht => ?_, ?_⟩
          · exact names.isListed_of_mem (by rw [hinner]; simp [ht])
          · simp [(listless_ending declaration).1]
        · cases outer with
          | nil => simp at houter
          | cons t outer =>
            obtain ⟨-, houter⟩ := List.cons.inj houter
            have hending := listless_append listless_fromWord (listless_ending declaration)
            rw [List.singleton_append, houter] at hending
            exact absurd hname (hending.2.2 name (by simp))

theorem opening_of_upper (h : declaration.tail = before ++ after)
    (hopen : .openBrace ∈ before) (hclose : .closeBrace ∉ before) :
    ∃ lead, ∃ inner : List Token, Lead lead ∧ before = lead ++ .openBrace :: inner ∧
      ∀ t ∈ inner, t.isListed := by
  rcases tail_cases declaration with hnone | ⟨lead, names, hlead, htail⟩
  · rw [h] at hnone
    exact absurd (List.mem_append_left after hopen) hnone.1
  · rw [htail] at h
    rcases append_eq_append_cons_cases h.symm with ⟨inner, rfl, hinner⟩ | ⟨w, rfl, -⟩
    · refine ⟨lead, inner, hlead, rfl, ?_⟩
      rcases append_eq_append_cons_cases hinner.symm with ⟨w, rfl, -⟩ | ⟨w, hnames, -⟩
      · exact absurd (by simp) hclose
      · exact fun t ht => names.isListed_of_mem (by rw [hnames]; simp [ht])
    · exact absurd (List.mem_append_left w hopen) hlead.listless.1

theorem openBrace_notMem_of_upper (h : declaration.tail = before ++ after)
    (hopen : .openBrace ∈ before) : .openBrace ∉ after := by
  rcases tail_cases declaration with hnone | ⟨lead, names, hlead, htail⟩
  · rw [h] at hnone
    exact absurd (List.mem_append_left after hopen) hnone.1
  · rw [htail] at h
    rcases append_eq_append_cons_cases h.symm with ⟨w, -, hw⟩ | ⟨w, rfl, -⟩
    · have hrest : .openBrace ∉
          names.tokens ++ .closeBrace :: .word .fromWord :: declaration.ending := by
        have hnames : .openBrace ∉ names.tokens := fun hmem =>
          Bool.false_ne_true (names.isListed_of_mem hmem)
        simp [hnames, (listless_ending declaration).1]
      rw [hw] at hrest
      exact fun hmem => hrest (List.mem_append_right w hmem)
    · exact absurd (List.mem_append_left w hopen) hlead.listless.1

theorem closing_of_lower (h : declaration.tail = before ++ after)
    (hopen : .openBrace ∉ after) (hclose : .closeBrace ∈ after) :
    ∃ inner, after = inner ++ .closeBrace :: .word .fromWord :: declaration.ending ∧
      ∀ t ∈ inner, t.isListed := by
  rcases tail_cases declaration with hnone | ⟨lead, names, hlead, htail⟩
  · rw [h] at hnone
    exact absurd (List.mem_append_right before hclose) hnone.2.1
  · rw [htail] at h
    rcases append_eq_append_cons_cases h.symm with ⟨w, rfl, hw⟩ | ⟨w, -, rfl⟩
    · rcases append_eq_append_cons_cases hw.symm with ⟨w', rfl, hw'⟩ | ⟨inner, hnames, rfl⟩
      · have hending := listless_append listless_fromWord (listless_ending declaration)
        rw [List.singleton_append, hw'] at hending
        exact absurd (List.mem_append_right w' hclose) hending.2.1
      · refine ⟨inner, rfl, fun t ht => ?_⟩
        exact names.isListed_of_mem (by rw [hnames]; simp [ht])
    · exact absurd (by simp) hopen

end ImportDeclaration

def IsSpace (cs : List Char) : Prop :=
  ∀ c ∈ cs, isBlank c ∧ c ≠ '\n'

instance (cs : List Char) : Decidable (IsSpace cs) :=
  List.decidableBAll (fun c => isBlank c ∧ c ≠ '\n') cs

structure Spaced where
  gap : List Char
  token : Token

def Separated : List Spaced → Prop
  | first :: second :: rest =>
      (first.token.isWord → second.token.isWord → second.gap ≠ []) ∧ Separated (second :: rest)
  | _ => True

instance decidableSeparated : (row : List Spaced) → Decidable (Separated row)
  | [] => isTrue trivial
  | [_] => isTrue trivial
  | first :: second :: rest =>
      have : Decidable (Separated (second :: rest)) := decidableSeparated (second :: rest)
      inferInstanceAs (Decidable ((first.token.isWord → second.token.isWord → second.gap ≠ []) ∧
        Separated (second :: rest)))

theorem separated_of_cons {s : Spaced} {row : List Spaced} (h : Separated (s :: row)) :
    Separated row := by
  cases row with
  | nil => trivial
  | cons r row => exact h.2

theorem separated_of_append {row more : List Spaced} (h : Separated (row ++ more)) :
    Separated row := by
  induction row with
  | nil => trivial
  | cons s row ih =>
    cases row with
    | nil => trivial
    | cons r row => exact ⟨h.1, ih h.2⟩

theorem separated_of_append_right {row more : List Spaced} (h : Separated (row ++ more)) :
    Separated more := by
  induction row with
  | nil => exact h
  | cons s row ih => exact ih (separated_of_cons h)

structure LaidLine where
  row : List Spaced
  tail : List Char := []
  comment : Option (List Char) := none
  row_space : ∀ s ∈ row, IsSpace s.gap := by decide
  tail_space : IsSpace tail := by decide
  comment_line : ∀ words ∈ comment, '\n' ∉ words := by decide
  separated : Separated row := by decide

namespace LaidLine

def tokens (line : LaidLine) : List Token :=
  line.row.map (·.token)

def rowText (row : List Spaced) : List Char :=
  row.flatMap fun s => s.gap ++ s.token.text

def commentText (comment : Option (List Char)) : List Char :=
  comment.elim [] fun words => '/' :: '/' :: words

def text (line : LaidLine) : List Char :=
  rowText line.row ++ (line.tail ++ commentText line.comment)

def Parted (line : LaidLine) : Prop :=
  ∀ s ∈ line.row[1]?, s.gap ≠ []

structure OpensList (line : LaidLine) : Prop where
  parted : line.Parted
  opened : .openBrace ∈ line.tokens
  unclosed : .closeBrace ∉ line.tokens
  quiet : ∀ words ∈ line.comment, ∀ c ∈ words, c ∉ ['\x7d', '\'', '"']

structure HoldsNames (line : LaidLine) : Prop where
  bare : line.comment = none
  names : ∃ names : NameList, line.tokens = names.tokens

end LaidLine

structure Layout (declaration : ImportDeclaration) where
  upper : List LaidLine
  last : LaidLine
  tokens_eq : (upper ++ [last]).flatMap (·.tokens) = declaration.tokens
  begins : ∀ first ∈ upper.head?, first.row ≠ []
  ends : last.row ≠ []
  bare : last.comment = none

namespace Layout

variable {declaration : ImportDeclaration}

def text (layout : Layout declaration) : List Char :=
  layout.upper.flatMap (fun line => line.text ++ ['\n']) ++ layout.last.text

/-- The declaration stands on one line, or its first line opens a list that the last one closes with
whole names on each line between. -/
def Plain (layout : Layout declaration) : Prop :=
  declaration.source.Unquoted ∧
    match layout.upper with
    | [] => declaration.clause.isSome → layout.last.Parted
    | first :: between =>
        first.OpensList ∧ (∀ line ∈ between, line.HoldsNames) ∧ .closeBrace ∈ layout.last.tokens

end Layout

end LivePreview.Source
