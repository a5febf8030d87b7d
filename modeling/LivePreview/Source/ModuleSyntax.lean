import LivePreview.Text.Pattern

namespace LivePreview.Source

open LivePreview.Text (Pattern)
open LivePreview.Text.Pattern

namespace ModuleSyntax

def quote : Pattern :=
  oneOf [char '\'', char '"']

def moduleName : Pattern :=
  all [quote, many (noneOf "'\""), quote]

def lineEnd : Pattern :=
  all [blanks, optional (char ';'), blanks]

def origin : Pattern :=
  all [word "from", blanks, moduleName]

def typeWord : Pattern :=
  optional (seq (word "type") gap)

def bracedNames : Pattern :=
  all [char '\x7b', many (noneOf "\x7d"), char '\x7d']

def rename : Pattern :=
  all [name, optional (all [gap, word "as", gap, name]), blanks]

def importDeclaration : Pattern :=
  all [blanks, word "import", gap, typeWord,
    optional (all [name, blanks, optional (char ','), blanks]),
    optional (either bracedNames (all [char '*', blanks, word "as", gap, name])),
    blanks, origin, lineEnd]

def sideEffectImport : Pattern :=
  all [blanks, word "import", blanks, moduleName, lineEnd]

def exportedName : Pattern :=
  all [blanks, word "export", gap, word "default", gap, .symbol .nameStart,
    many (.symbol .nameChar), lineEnd]

def exportedNames : Pattern :=
  all [blanks, word "export", blanks, bracedNames, blanks, optional origin, lineEnd]

def exportAll : Pattern :=
  all [blanks, word "export", blanks, char '*', blanks,
    optional (all [word "as", gap, name, blanks]), origin, lineEnd]

def importOpening : Pattern :=
  all [blanks, word "import", gap, typeWord, optional (all [name, blanks, char ',', blanks]),
    char '\x7b', many (noneOf "\x7d'\"")]

def exportOpening : Pattern :=
  all [blanks, word "export", blanks, char '\x7b', many (noneOf "\x7d'\"")]

def importClosing : Pattern :=
  all [many (noneOf "\x7b\x7d'\""), char '\x7d', blanks, origin, lineEnd]

def exportClosing : Pattern :=
  all [many (noneOf "\x7b\x7d'\""), char '\x7d', blanks, optional origin, lineEnd]

def bindingNames : Pattern :=
  all [blanks, many (all [rename, char ',', blanks]), optional rename]

end ModuleSyntax

inductive BlockKind where
  | importing
  | exporting
  deriving DecidableEq, Repr

def BlockKind.closing : BlockKind → Pattern
  | .importing => ModuleSyntax.importClosing
  | .exporting => ModuleSyntax.exportClosing

inductive LineRole where
  | declaration
  | opening (kind : BlockKind)
  | program
  deriving DecidableEq, Repr

def isDeclaration (body : List Char) : Bool :=
  ModuleSyntax.importDeclaration.accepts body
    || ModuleSyntax.sideEffectImport.accepts body
    || ModuleSyntax.exportedName.accepts body
    || ModuleSyntax.exportedNames.accepts body
    || ModuleSyntax.exportAll.accepts body

def LineRole.ofBody (body : List Char) : LineRole :=
  if isDeclaration body then .declaration
  else if ModuleSyntax.importOpening.accepts body then .opening .importing
  else if ModuleSyntax.exportOpening.accepts body then .opening .exporting
  else .program

end LivePreview.Source
