import LivePreview.Text.WordTable

namespace LivePreview.Text

def isWord (c : Char) : Bool :=
  let n := c.toNat
  if n < 0x80 then c.isAlphanum || c == '_'
  else wordRanges.any fun range => range.1 ≤ n && n ≤ range.2

def isNameChar (c : Char) : Bool :=
  isWord c || c == '$'

def endsWord : List Char → Bool
  | [] => true
  | c :: _ => !isWord c

end LivePreview.Text
