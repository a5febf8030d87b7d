/-!
Placeholders in settings. The text is read once from left to right; a value put in is not read
again, and an opening mark that is never closed stays as it is.
-/

namespace LivePreview

/-- Variables with their values. A look-up finds the first entry whose text starts with the name
and an equals sign. -/
structure Environment where
  entries : List (String × String) := []

def Environment.get? (env : Environment) (name : String) : Option String :=
  if name.isEmpty then none
  else
    env.entries.findSome? fun entry =>
      ((name ++ "=").toList.isPrefixOf? (entry.1 ++ "=" ++ entry.2).toList).map .ofList

def Environment.value (env : Environment) (name : String) : String :=
  (env.get? name).getD ""

namespace Placeholder

def opening : List Char :=
  ['$', '\x7b', 'e', 'n', 'v', '.']

def closing : Char := '\x7d'

def name (body : List Char) : String :=
  .ofList (body.takeWhile (· != closing))

def afterName (body : List Char) : List Char :=
  (body.dropWhile (· != closing)).drop 1

theorem length_afterName_le (body : List Char) : (afterName body).length ≤ body.length := by
  have := (List.dropWhile_sublist (l := body) (· != closing)).length_le
  simp only [afterName, List.length_drop]
  omega

def expand (env : Environment) : List Char → List Char
  | [] => []
  | c :: cs =>
      if opening.isPrefixOf (c :: cs) then
        let body := cs.drop (opening.length - 1)
        if body.contains closing then
          (env.value (name body)).toList ++ expand env (afterName body)
        else c :: cs
      else c :: expand env cs
termination_by cs => cs.length
decreasing_by
  · have := length_afterName_le (cs.drop (opening.length - 1))
    simp only [List.length_drop, List.length_cons] at *
    omega
  · simp

def names : List Char → List String
  | [] => []
  | c :: cs =>
      if opening.isPrefixOf (c :: cs) then
        let body := cs.drop (opening.length - 1)
        if body.contains closing then name body :: names (afterName body) else []
      else names cs
termination_by cs => cs.length
decreasing_by
  · have := length_afterName_le (cs.drop (opening.length - 1))
    simp only [List.length_drop, List.length_cons] at *
    omega
  · simp

end Placeholder

def resolvePlaceholders (env : Environment) (text : String) : String :=
  .ofList (Placeholder.expand env text.toList)

end LivePreview
