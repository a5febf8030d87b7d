import LivePreview.Text.Parts
import LivePreview.Address.Escape

namespace LivePreview.Address

def isDot (segment : List Char) : Bool :=
  segment == ['.'] || segment.map Char.toLower == ['%', '2', 'e']

def isDoubleDot (segment : List Char) : Bool :=
  let lower := segment.map Char.toLower
  lower == ['.', '.'] || lower == ['.', '%', '2', 'e'] || lower == ['%', '2', 'e', '.']
    || lower == ['%', '2', 'e', '%', '2', 'e']

def isDrive : List Char → Bool
  | [letter, mark] => letter.isAlpha && (mark == ':' || mark == '|')
  | _ => false

def leave : List (List Char) → List (List Char)
  | [] => []
  | segment :: above => if isDrive segment then segment :: above else above

/-- Segments of a path with dot segments resolved; `done` holds the last ones first. -/
def resolveDots (done : List (List Char)) : List (List Char) → List (List Char)
  | [] => done.reverse
  | segment :: rest =>
      if isDoubleDot segment then
        resolveDots (if rest.isEmpty then [] :: leave done else leave done) rest
      else if isDot segment then resolveDots (if rest.isEmpty then [] :: done else done) rest
      else resolveDots (segment :: done) rest

def resolved (isSlash : Char → Bool) (cs : List Char) : List (List Char) :=
  resolveDots [] (Text.splitWhere isSlash cs)

def joinSegments (segments : List (List Char)) : List Char :=
  segments.flatMap fun segment => '/' :: encode escapedInPath segment

end LivePreview.Address
