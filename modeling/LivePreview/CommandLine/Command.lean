import LivePreview.Data.Query
import LivePreview.CommandLine.Help

namespace LivePreview.CommandLine

inductive Command where
  | build (file : String) (out : Option String)
  | extract (file : String)
  | serve (port : UInt16) (watch : Option String)
  | query (query : Query) (watch : Bool)
  | locationProducts (location : Option String) (sourceFile : Option String) (watch : Bool)
  deriving DecidableEq, Repr

structure Invocation where
  config : Option String
  command : Command
  deriving DecidableEq, Repr

inductive Parsed where
  | run (invocation : Invocation)
  | help (text : HelpText)
  deriving DecidableEq, Repr

inductive CommandName where
  | build
  | extract
  | serve
  | query
  | locationProducts
  deriving DecidableEq, Repr

namespace CommandName

def all : List CommandName :=
  [.build, .extract, .serve, .query, .locationProducts]

def text : CommandName → String
  | .build => "build"
  | .extract => "extract"
  | .serve => "serve"
  | .query => "query"
  | .locationProducts => "location-products"

def about : CommandName → String
  | .build => "Write the bootstrap document for a source file"
  | .extract => "Print the configuration constants extracted from a source file"
  | .serve => "Run the preview server"
  | .query => "Read a table through the data API"
  | .locationProducts => "Products at a location, filtered by minimum quantity"

def ofText? (word : String) : Option CommandName :=
  all.find? fun name => name.text == word

def options : CommandName → List OptionSpec
  | .build => [{ long := "out", short := some 'o', kind := some .path }]
  | .extract => []
  | .serve =>
      [{ long := "port", kind := some (.number 65535) }, { long := "watch", kind := some .path }]
  | .query =>
      [{ long := "select" }, { long := "filter" }, { long := "order" },
        { long := "limit", kind := some (.number 4294967295) }, { long := "watch", kind := none }]
  | .locationProducts =>
      [{ long := "location" }, { long := "from", kind := some .path },
        { long := "watch", kind := none }]

def subject : CommandName → Option Subject
  | .build => some ⟨"FILE", .path⟩
  | .extract => some ⟨"FILE", .path⟩
  | .query => some ⟨"TABLE", .any⟩
  | .serve => none
  | .locationProducts => none

def optionLines : CommandName → List HelpLine
  | .build => [⟨"-o, --out <OUT>", "Output path (default: stdout)"⟩]
  | .extract => []
  | .serve =>
      [⟨"    --port <PORT>", "[default: 4100]"⟩,
        ⟨"    --watch <WATCH>", "Feed edits of this file into the \x60default\x60 session"⟩]
  | .query =>
      [⟨"    --select <SELECT>", ""⟩,
        ⟨"    --filter <FILTER>", "Raw filter, e.g. status=eq.open"⟩,
        ⟨"    --order <ORDER>", ""⟩,
        ⟨"    --limit <LIMIT>", ""⟩,
        ⟨"    --watch", "Keep polling at the configured interval"⟩]
  | .locationProducts =>
      [⟨"    --location <LOCATION>", ""⟩,
        ⟨"    --from <FROM>", "Take LOCATION_ID from this source file when --location is absent"⟩,
        ⟨"    --watch", ""⟩]

def help (name : CommandName) : HelpText :=
  let subject := name.subject.elim "" fun subject => " <" ++ subject.name ++ ">"
  { about := name.about
    usage := "lantern-preview " ++ name.text ++ " [OPTIONS]" ++ subject
    sections :=
      (name.subject.map fun subject =>
          ("Arguments", [HelpLine.mk ("<" ++ subject.name ++ ">") ""])).toList
        ++ [("Options", configLine :: name.optionLines ++ [helpLine])] }

end CommandName

def helpAbout : String :=
  "Print this message or the help of the given subcommand(s)"

def programHelp : HelpText :=
  { about := "Live preview engine for single-file React programs"
    usage := "lantern-preview [OPTIONS] <COMMAND>"
    sections :=
      [("Commands", CommandName.all.map (fun name => HelpLine.mk name.text name.about)
          ++ [⟨"help", helpAbout⟩]),
        ("Options", [configLine, helpLine])] }

def helpHelp : HelpText :=
  { about := helpAbout
    usage := "lantern-preview help [COMMAND]..."
    sections := [("Arguments", [⟨"[COMMAND]...", "Print help for the subcommand(s)"⟩])] }

def configOption : OptionSpec :=
  { long := "config", kind := some .path }

def requireWord (words : Words) (name : String) : Except Misuse String :=
  match words.value? name with
  | some word => .ok word
  | none => .error (.missingWord name)

def commandOf (name : CommandName) (words : Words) : Except Misuse Command := do
  match name with
  | .build => return .build (← requireWord words "FILE") (words.value? "out")
  | .extract => return .extract (← requireWord words "FILE")
  | .serve =>
      return .serve (.ofNat ((words.number? "port" 65535).getD 4100)) (words.value? "watch")
  | .query =>
      let query : Query :=
        { table := ← requireWord words "TABLE"
          select := words.value? "select"
          filter := words.value? "filter"
          order := words.value? "order"
          limit := (words.number? "limit" 4294967295).map .ofNat }
      return .query query (words.has "watch")
  | .locationProducts =>
      return .locationProducts (words.value? "location") (words.value? "from") (words.has "watch")

/-- The settings named behind the command win over those named before it, whose check comes last. -/
def parseCommand (outer : Words) (name : CommandName) (words : List String) :
    Except Misuse Parsed := do
  let inner ← readWords (configOption :: name.options) name.subject words.length {} words
  if inner.help then return .help name.help
  let command ← commandOf name inner
  let outer ← outer.settle
  return .run ⟨(inner.value? "config").or (outer.value? "config"), command⟩

def parseHelp (words : List String) : Except Misuse Parsed :=
  match words with
  | [] => .ok (.help programHelp)
  | word :: rest =>
      let help := if word = "help" then some helpHelp else (CommandName.ofText? word).map (·.help)
      match help, rest with
      | some text, [] => .ok (.help text)
      | some _, extra :: _ => .error (.unknownCommand extra)
      | none, _ => .error (.unknownCommand word)

def parse (words : List String) : Except Misuse Parsed := do
  let (outer, left) ← readOptions [configOption] words.length {} words
  if outer.help then return .help programHelp
  match left with
  | [] => .error .missingCommand
  | word :: rest =>
      if word = "help" then parseHelp rest
      else
        match CommandName.ofText? word with
        | some name => parseCommand outer name rest
        | none => .error (.unknownCommand word)

end LivePreview.CommandLine
