import LivePreview.Text.Percent

namespace LivePreview.Address

def isVisible (c : Char) : Bool :=
  0x21 ≤ c.toNat && c.toNat ≤ 0x7E

def escapedInFragment : List Char :=
  ['"', '<', '>', '\x60']

def escapedInPath : List Char :=
  escapedInFragment ++ ['#', '?', '\x7b', '\x7d']

def escapedInUser : List Char :=
  escapedInPath ++ ['/', ':', ';', '=', '@', '[', '\\', ']', '^', '|']

def escapedInQuery : List Char :=
  ['"', '#', '<', '>']

def escapedInWebQuery : List Char :=
  '\'' :: escapedInQuery

def encode (escaped : List Char) (cs : List Char) : List Char :=
  cs.flatMap fun c =>
    if isVisible c && !escaped.contains c then [c]
    else (Text.Percent.bytes (String.singleton c)).flatMap Text.Percent.escape

end LivePreview.Address
