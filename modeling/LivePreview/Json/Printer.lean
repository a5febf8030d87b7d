import LivePreview.Json.Basic
import LivePreview.Decimal.Layout

namespace LivePreview

namespace Json

def numberLayout : Decimal.Layout :=
  ⟨-5, 15⟩

def hexDigit (n : Nat) : Char :=
  (Nat.digitChar (n % 16))

def escapeChar (c : Char) : List Char :=
  if c = '"' then ['\\', '"']
  else if c = '\\' then ['\\', '\\']
  else if c = '\x08' then ['\\', 'b']
  else if c = '\x0c' then ['\\', 'f']
  else if c = '\n' then ['\\', 'n']
  else if c = '\r' then ['\\', 'r']
  else if c = '\t' then ['\\', 't']
  else if c.toNat < 0x20 then ['\\', 'u', '0', '0', hexDigit (c.toNat / 16), hexDigit c.toNat]
  else [c]

def quote (s : String) : List Char :=
  '"' :: s.toList.flatMap escapeChar ++ ['"']

def writeInt (n : Int) : List Char :=
  if 0 ≤ n then Decimal.digitsOf n.toNat else '-' :: Decimal.digitsOf (-n).toNat

def writeFloat (x : Float) : List Char :=
  if x.isFinite then numberLayout.writeFloat x else ['n', 'u', 'l', 'l']

mutual

def write : Json → List Char
  | .null => ['n', 'u', 'l', 'l']
  | .bool true => ['t', 'r', 'u', 'e']
  | .bool false => ['f', 'a', 'l', 's', 'e']
  | .int n => writeInt n.val
  | .float x => writeFloat x
  | .str s => quote s
  | .arr items => '[' :: writeItems items
  | .obj fields => '\x7b' :: writeFields fields

def writeItems : List Json → List Char
  | [] => [']']
  | [item] => write item ++ [']']
  | item :: items => write item ++ ',' :: writeItems items

def writeFields : List (String × Json) → List Char
  | [] => ['\x7d']
  | [(name, value)] => quote name ++ ':' :: write value ++ ['\x7d']
  | (name, value) :: fields => quote name ++ ':' :: write value ++ ',' :: writeFields fields

end

def compact (value : Json) : String :=
  .ofList value.write

def newLine (level : Nat) : List Char :=
  '\n' :: List.replicate (2 * level) ' '

mutual

def layOut (level : Nat) : Json → List Char
  | .arr (item :: items) =>
      '[' :: newLine (level + 1) ++ layOut (level + 1) item ++ layOutItems (level + 1) items
  | .obj ((name, value) :: fields) =>
      '\x7b' :: newLine (level + 1) ++ quote name ++ ':' :: ' ' :: layOut (level + 1) value
        ++ layOutFields (level + 1) fields
  | .arr [] => ['[', ']']
  | .obj [] => ['\x7b', '\x7d']
  | .null => ['n', 'u', 'l', 'l']
  | .bool true => ['t', 'r', 'u', 'e']
  | .bool false => ['f', 'a', 'l', 's', 'e']
  | .int n => writeInt n.val
  | .float x => writeFloat x
  | .str s => quote s

def layOutItems (level : Nat) : List Json → List Char
  | [] => newLine (level - 1) ++ [']']
  | item :: items => ',' :: newLine level ++ layOut level item ++ layOutItems level items

def layOutFields (level : Nat) : List (String × Json) → List Char
  | [] => newLine (level - 1) ++ ['\x7d']
  | (name, value) :: fields =>
      ',' :: newLine level ++ quote name ++ ':' :: ' ' :: layOut level value
        ++ layOutFields level fields

end

def pretty (value : Json) : String :=
  .ofList (layOut 0 value)

end Json

end LivePreview
