import LivePreview.Text.Blank
import LivePreview.Text.Word

namespace LivePreview.Source

open LivePreview.Text

inductive ConstantName where
  | location
  | vendor
  deriving DecidableEq, Repr

namespace ConstantName

def all : List ConstantName :=
  [.location, .vendor]

def text : ConstantName → String
  | .location => "LOCATION_ID"
  | .vendor => "VENDOR_ID"

def ofText? (s : String) : Option ConstantName :=
  all.find? fun name => name.text == s

end ConstantName

structure Constants where
  location : Option String := none
  vendor : Option String := none
  deriving DecidableEq, Repr

namespace Constants

def get? (constants : Constants) : ConstantName → Option String
  | .location => constants.location
  | .vendor => constants.vendor

def set (constants : Constants) (name : ConstantName) (value : String) : Constants :=
  match name with
  | .location => { constants with location := some value }
  | .vendor => { constants with vendor := some value }

/-- A value is stored only if the name has none yet; the flag tells whether it was. -/
def insertIfNew (constants : Constants) (name : ConstantName) (value : String) :
    Constants × Bool :=
  match constants.get? name with
  | some _ => (constants, false)
  | none => (constants.set name value, true)

def insertNamed (constants : Constants) (name value : String) : Constants × Bool :=
  match ConstantName.ofText? name with
  | some name => constants.insertIfNew name value
  | none => (constants, false)

def toList (constants : Constants) : List (ConstantName × String) :=
  ConstantName.all.filterMap fun name => (constants.get? name).map (name, ·)

def size (constants : Constants) : Nat :=
  constants.toList.length

def isEmpty (constants : Constants) : Bool :=
  constants.toList.isEmpty

end Constants

def constantKeywords : List String :=
  ["const", "let", "var"]

def literal? : List Char → Option (List Char)
  | [] => none
  | q :: cs =>
      if q == '"' || q == '\'' then
        let plain := fun c => c != q && c != '\\' && c != '\n'
        if (cs.dropWhile plain).head? == some q then some (cs.takeWhile plain) else none
      else none

def declaredLiteral? (name : ConstantName) (cs : List Char) : Option (List Char) :=
  constantKeywords.findSome? fun keyword => do
    let rest ← keyword.toList.isPrefixOf? cs
    guard (startsBlank rest)
    let rest ← name.text.toList.isPrefixOf? (dropBlanks rest)
    match dropBlanks rest with
    | '=' :: value => literal? (dropBlanks value)
    | _ => none

def firstLiteral? (name : ConstantName) (inWord : Bool) : List Char → Option (List Char)
  | [] => none
  | c :: cs =>
      match if inWord then none else declaredLiteral? name (c :: cs) with
      | some value => some value
      | none => firstLiteral? name (isWord c) cs

def constantIn? (source : String) (name : ConstantName) : Option String :=
  (firstLiteral? name false source.toList).map .ofList

def Constants.ofSource (source : String) : Constants :=
  ConstantName.all.foldl (fun constants name =>
    match constantIn? source name with
    | some value => (constants.insertIfNew name value).1
    | none => constants) {}

end LivePreview.Source
