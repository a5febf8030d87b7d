import LivePreview.Text.Blank

/-!
Lines of a text. A line keeps the newline that ends it, so the lines of a text concatenate to the
text; its body is the line without the line end.
-/

namespace LivePreview.Text

abbrev Line := List Char

def lines : List Char → List Line
  | [] => []
  | c :: cs =>
      if c = '\n' then ['\n'] :: lines cs
      else
        match lines cs with
        | [] => [[c]]
        | l :: ls => (c :: l) :: ls

theorem flatten_lines (cs : List Char) : (lines cs).flatten = cs := by
  induction cs with
  | nil => rfl
  | cons c cs ih =>
      unfold lines
      split
      · rename_i h
        simp [h, ih]
      · split
        · rename_i h
          simp [h] at ih
          simp [← ih]
        · rename_i l ls h
          simp [h] at ih
          simp [← ih]

def isLineEnd (c : Char) : Bool :=
  c == '\n' || c == '\r'

def Line.body (line : Line) : List Char :=
  dropEndWhile isLineEnd line

end LivePreview.Text
