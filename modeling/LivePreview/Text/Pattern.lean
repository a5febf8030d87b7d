import LivePreview.Text.Blank
import LivePreview.Text.Word

/-!
Patterns describe sets of texts. `Matches` says which texts a pattern describes; `accepts` decides
it by reading the text once and keeping the patterns that the rest of the text has to match.
-/

namespace LivePreview.Text

inductive Symbol where
  | char (c : Char)
  | blank
  | nameChar
  | nameStart
  | noneOf (cs : List Char)
  deriving DecidableEq, Repr

def Symbol.accepts : Symbol → Char → Bool
  | .char d, c => c == d
  | .blank, c => isBlank c
  | .nameChar, c => isNameChar c
  | .nameStart, c => c.isAlpha || c == '_' || c == '$'
  | .noneOf cs, c => !cs.contains c

inductive Pattern where
  | nothing
  | empty
  | symbol (s : Symbol)
  | seq (p q : Pattern)
  | either (p q : Pattern)
  | many (p : Pattern)
  deriving DecidableEq, Repr

namespace Pattern

inductive Matches : Pattern → List Char → Prop where
  | empty : Matches .empty []
  | symbol {s : Symbol} {c : Char} (h : s.accepts c) : Matches (.symbol s) [c]
  | seq {p q : Pattern} {u v : List Char} : Matches p u → Matches q v → Matches (.seq p q) (u ++ v)
  | left {p q : Pattern} {u : List Char} : Matches p u → Matches (.either p q) u
  | right {p q : Pattern} {u : List Char} : Matches q u → Matches (.either p q) u
  | none {p : Pattern} : Matches (.many p) []
  | more {p : Pattern} {u v : List Char} :
      Matches p u → Matches (.many p) v → Matches (.many p) (u ++ v)

def nullable : Pattern → Bool
  | .nothing => false
  | .empty => true
  | .symbol _ => false
  | .seq p q => p.nullable && q.nullable
  | .either p q => p.nullable || q.nullable
  | .many _ => true

def after (c : Char) : Pattern → List Pattern
  | .nothing => []
  | .empty => []
  | .symbol s => if s.accepts c then [.empty] else []
  | .seq p q =>
      let rests := (p.after c).map (·.seq q)
      if p.nullable then rests ++ q.after c else rests
  | .either p q => p.after c ++ q.after c
  | .many p => (p.after c).map (·.seq (.many p))

def step (ps : List Pattern) (c : Char) : List Pattern :=
  (ps.flatMap (after c)).eraseDups

def accepts (p : Pattern) (cs : List Char) : Bool :=
  (cs.foldl step [p]).any nullable

def all (ps : List Pattern) : Pattern :=
  ps.foldr seq .empty

def oneOf (ps : List Pattern) : Pattern :=
  ps.foldr either .nothing

def char (c : Char) : Pattern :=
  .symbol (.char c)

def word (s : String) : Pattern :=
  all (s.toList.map char)

def optional (p : Pattern) : Pattern :=
  either p .empty

def some (p : Pattern) : Pattern :=
  seq p (many p)

def noneOf (s : String) : Pattern :=
  .symbol (.noneOf s.toList)

def blanks : Pattern :=
  many (.symbol .blank)

def gap : Pattern :=
  some (.symbol .blank)

def name : Pattern :=
  some (.symbol .nameChar)

end Pattern

end LivePreview.Text
