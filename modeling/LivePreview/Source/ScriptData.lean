/-!
Script data is the text inside a script element. `</script` in any case would end the element and
`<!--` would change how it is read, so a backslash is put after the `<` of each of them. Inside a
string or a pattern of the program the backslash means nothing.
-/

namespace LivePreview.Source

/-- The characters that equal an ASCII letter when case is ignored; the long s equals `s`. -/
def foldCase (c : Char) : Char :=
  if c = 'ſ' then 's' else c.toLower

def startsFolded : List Char → List Char → Bool
  | [], _ => true
  | _ :: _, [] => false
  | w :: ws, c :: cs => foldCase c == w && startsFolded ws cs

/-- The text after a `<` that makes it dangerous. -/
def isHazard (cs : List Char) : Bool :=
  match cs with
  | '/' :: rest => startsFolded ['s', 'c', 'r', 'i', 'p', 't'] rest
  | '!' :: '-' :: '-' :: _ => true
  | _ => false

def escapeHazards : List Char → List Char
  | [] => []
  | c :: cs =>
      if c = '<' ∧ isHazard cs then c :: '\\' :: escapeHazards cs
      else c :: escapeHazards cs

def defuse (source : String) : String :=
  .ofList (escapeHazards source.toList)

end LivePreview.Source
