import LivePreview.Text.Blank
import LivePreview.Text.Word

/-!
Root names are the names under which a preview looks for its entry component, in order of
preference.
-/

namespace LivePreview.Source

open LivePreview.Text

inductive RootName where
  | app
  | preview
  | component
  | page
  deriving DecidableEq, Repr

namespace RootName

def all : List RootName :=
  [.app, .preview, .component, .page]

def text : RootName → String
  | .app => "App"
  | .preview => "Preview"
  | .component => "Component"
  | .page => "Page"

end RootName

def declaringKeywords : List String :=
  ["function", "class", "const", "let", "var"]

def afterKeywordGap (cs : List Char) : Option (List Char) :=
  match dropBlanks cs with
  | '*' :: rest => if startsBlank rest then some (dropBlanks rest) else none
  | rest => if startsBlank cs then some rest else none

def RootName.follows (name : RootName) (cs : List Char) : Bool :=
  match name.text.toList.isPrefixOf? cs with
  | some rest => endsWord rest
  | none => false

def RootName.declaredAt (name : RootName) (cs : List Char) : Bool :=
  declaringKeywords.any fun keyword =>
    match keyword.toList.isPrefixOf? cs with
    | some rest => (afterKeywordGap rest).any name.follows
    | none => false

def RootName.declaredIn (name : RootName) (inWord : Bool) : List Char → Bool
  | [] => false
  | c :: cs => (!inWord && name.declaredAt (c :: cs)) || name.declaredIn (isWord c) cs

def freeRootName (source : List Char) : Option RootName :=
  RootName.all.find? fun name => !name.declaredIn false source

end LivePreview.Source
