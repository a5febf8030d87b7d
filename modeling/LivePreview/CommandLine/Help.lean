import LivePreview.CommandLine.Option

namespace LivePreview.CommandLine

structure HelpLine where
  label : String
  about : String
  deriving DecidableEq, Repr

structure HelpText where
  about : String
  usage : String
  sections : List (String × List HelpLine)
  deriving DecidableEq, Repr

namespace HelpText

def column (lines : List HelpLine) : Nat :=
  lines.foldl (fun width line => max width line.label.length) 0

def pad (width : Nat) (label : String) : String :=
  label ++ .ofList (List.replicate (width - label.length) ' ')

def renderLines (lines : List HelpLine) : String :=
  String.join (lines.map fun line =>
    "  " ++ pad (column lines) line.label ++ "  " ++ line.about ++ "\n")

def render (help : HelpText) : String :=
  help.about ++ "\n\nUsage: " ++ help.usage ++ "\n"
    ++ String.join (help.sections.map fun s => "\n" ++ s.1 ++ ":\n" ++ renderLines s.2)

end HelpText

def configLine : HelpLine :=
  ⟨"    --config <CONFIG>", "Path to lantern.json (default: ./lantern.json if present)"⟩

def helpLine : HelpLine :=
  ⟨"-h, --help", "Print help"⟩

end LivePreview.CommandLine
