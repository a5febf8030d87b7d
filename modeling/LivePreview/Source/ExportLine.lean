import LivePreview.Source.RootName

namespace LivePreview.Source

open LivePreview.Text

def afterWord (word : String) (cs : List Char) : Option (List Char) :=
  match word.toList.isPrefixOf? cs with
  | some rest => if startsBlank rest then some (dropBlanks rest) else none
  | none => none

def anonymousFunction (value : List Char) : Option (List Char × List Char) :=
  let body := (afterWord "async" value).getD value
  let mark := value.take (value.length - body.length)
  match "function".toList.isPrefixOf? body with
  | none => none
  | some rest =>
      match dropBlanks rest with
      | '(' :: tail => some (mark ++ "function".toList, '(' :: tail)
      | '*' :: more =>
          match dropBlanks more with
          | '(' :: tail => some (mark ++ "function*".toList, '(' :: tail)
          | _ => none
      | _ => none

def anonymousClass (value : List Char) : Option (List Char) :=
  match "class".toList.isPrefixOf? value with
  | none => none
  | some rest =>
      match dropBlanks rest with
      | '\x7b' :: _ => some rest
      | tail =>
          match "extends".toList.isPrefixOf? tail with
          | some after => if startsBlank rest && endsWord after then some rest else none
          | none => none

def startsKeyword (word : String) (cs : List Char) : Bool :=
  match word.toList.isPrefixOf? cs with
  | some rest => endsWord rest
  | none => false

def isNamedDeclaration (value : List Char) : Bool :=
  startsKeyword "function" ((afterWord "async" value).getD value) || startsKeyword "class" value

def declareAs (name : RootName) (value : List Char) : List Char :=
  match anonymousFunction value with
  | some (words, tail) => words ++ ' ' :: name.text.toList ++ tail
  | none =>
      match anonymousClass value with
      | some tail => "class ".toList ++ name.text.toList ++ tail
      | none =>
          if isNamedDeclaration value then value
          else "var ".toList ++ name.text.toList ++ " = ".toList ++ value

def defaultValue (free : Option RootName) (value : List Char) : List Char :=
  match free with
  | some name => declareAs name value
  | none => value

def unexport (free : Option RootName) (line : List Char) : List Char :=
  match afterWord "export" (dropBlanks line) with
  | none => line
  | some exported =>
      line.takeWhile isBlank ++
        match afterWord "default" exported with
        | some value => defaultValue free value
        | none => exported

end LivePreview.Source
