import LivePreview.Settings.Basic
import LivePreview.Document.Basic
import LivePreview.Data.Client
import LivePreview.Data.LiveRows
import LivePreview.Surface.Watch
import LivePreview.CommandLine.Command

/-!
Running a command. Everything outside the program comes through a terminal: files, variables,
requests and what is printed. A command ends with an exit code, and with a message when it failed.
-/

namespace LivePreview.CommandLine

inductive ReadFailure where
  | missing
  | unreadable
  deriving DecidableEq, Repr

/-- What a command needs from outside. `rounds` is how often a poll may tick before it is
interrupted. -/
structure Terminal (m : Type → Type) where
  readText : String → m (Except ReadFailure String)
  writeText : String → String → m Bool
  environment : List String → m Environment
  exchange : Request → m Reply
  print : String → m Unit
  pause : Nat → m Unit
  rounds : Nat
  obstacles : UInt16 → Option String → m Surface.Obstacles
  listen : Registry → UInt16 → Option String → m Unit

inductive Failure where
  | settings
  | missingFile (path : String)
  | unreadableFile (path : String)
  | cannotWrite (path : String)
  | server (error : SurfaceError)
  deriving DecidableEq, Repr

def Failure.message : Failure → String
  | .settings => "load config"
  | .missingFile path => "path not found: " ++ path
  | .unreadableFile path => "read failed: " ++ path
  | .cannotWrite path => "write " ++ path
  | .server error => error.text

def defaultSettingsPath : String := "lantern.json"

variable {m : Type → Type} [Monad m]

abbrev Run (m : Type → Type) (α : Type) :=
  ExceptT Failure m α

def loadSettings (terminal : Terminal m) (path : Option String) : Run m Settings := do
  match ← terminal.readText (path.getD defaultSettingsPath) with
  | .ok text =>
      match Settings.parse text with
      | .ok settings => return settings
      | .error _ => throw .settings
  | .error .missing => if path.isSome then throw .settings else return {}
  | .error .unreadable => throw .settings

def programAt (terminal : Terminal m) (path : String) : Run m String := do
  match ← terminal.readText path with
  | .ok text => return text
  | .error .missing => throw (.missingFile path)
  | .error .unreadable => throw (.unreadableFile path)

def environmentOf (terminal : Terminal m) (api : DataApi) : Run m Environment :=
  let texts := [api.url, api.anonKey, api.serviceKey.getD ""]
  terminal.environment (texts.flatMap fun text => Placeholder.names text.toList)

def build (terminal : Terminal m) (settings : Settings) (file : String) (out : Option String) :
    Run m Unit := do
  let source ← programAt terminal file
  let env ← environmentOf terminal settings.api
  let document := Document.ofSource source (settings.effectiveOptions env)
  match out with
  | none => terminal.print document.html
  | some path => if !(← terminal.writeText path document.html) then throw (.cannotWrite path)

def constantsJson (constants : Source.Constants) : Json :=
  .ofFields (constants.toList.map fun constant => (constant.1.text, .str constant.2))

def extract (terminal : Terminal m) (file : String) : Run m Unit := do
  let source ← programAt terminal file
  terminal.print ((constantsJson (Source.Constants.ofSource source)).pretty ++ "\n")

def poll (terminal : Terminal m) (interval : Nat) (tick : m (Except DataFailure Rows)) :
    Nat → LiveRows → Run m Unit
  | 0, _ => return
  | rounds + 1, state => do
      let next := state.apply (← tick)
      terminal.print (next.line ++ "\n")
      terminal.pause interval
      poll terminal interval tick rounds next

def report (terminal : Terminal m) (client : Client) (watch : Bool)
    (tick : m (Except DataFailure Rows)) : Run m Unit := do
  if watch then poll terminal client.api.pollPeriod tick terminal.rounds {}
  else terminal.print ((LiveRows.apply {} (← tick)).line ++ "\n")

def locationOf (terminal : Terminal m) (location sourceFile : Option String) :
    Run m (Option String) := do
  match location, sourceFile with
  | some id, _ => return some id
  | none, some file => return (Source.Constants.ofSource (← programAt terminal file)).location
  | none, none => return none

def serve (terminal : Terminal m) (settings : Settings) (port : UInt16) (watch : Option String) :
    Run m Unit := do
  let env ← environmentOf terminal settings.api
  let registry : Registry := { options := settings.effectiveOptions env, timing := settings.timing }
  match Surface.serve registry port watch (← terminal.obstacles port watch) none with
  | .ok registry => terminal.listen registry port watch
  | .error error => throw (.server error)

def runCommand (terminal : Terminal m) (settings : Settings) : Command → Run m Unit
  | .build file out => build terminal settings file out
  | .extract file => extract terminal file
  | .serve port watch => serve terminal settings port watch
  | .query query watch => do
      let client := Client.ofApi (← environmentOf terminal settings.api) settings.api
      report terminal client watch (client.fetch terminal.exchange query)
  | .locationProducts location sourceFile watch => do
      let location ← locationOf terminal location sourceFile
      let client := Client.ofApi (← environmentOf terminal settings.api) settings.api
      report terminal client watch (client.productsAt terminal.exchange location)

def runInvocation (terminal : Terminal m) (invocation : Invocation) : Run m Unit := do
  let settings ← loadSettings terminal invocation.config
  runCommand terminal settings invocation.command

structure Outcome where
  code : Nat
  message : Option String := none
  deriving DecidableEq, Repr

def run (terminal : Terminal m) (words : List String) : m Outcome := do
  match parse words with
  | .error misuse => return ⟨2, some ("error: " ++ misuse.message)⟩
  | .ok (.help text) =>
      terminal.print text.render
      return ⟨0, none⟩
  | .ok (.run invocation) =>
      match ← (runInvocation terminal invocation).run with
      | .ok () => return ⟨0, none⟩
      | .error failure => return ⟨1, some ("Error: " ++ failure.message)⟩

end LivePreview.CommandLine
