import LivePreview.CommandLine.Run
import LivePreview.Surface.Http

/-!
The data API and the pages are reached over the streams of the process: a request to the API goes
out as one line of standard error and its reply comes in as one line of standard input; a server
reads one request a line and writes one response a line.
-/

namespace LivePreview.Main

open CommandLine

def readText (path : String) : IO (Except ReadFailure String) := do
  try
    return .ok (← IO.FS.readFile path)
  catch
    | .noFileOrDirectory _ _ _ => return .error .missing
    | _ => return .error .unreadable

def writeText (path text : String) : IO Bool := do
  try
    IO.FS.writeFile path text
    return true
  catch _ => return false

def isReadable (path : String) : IO Bool := do
  try
    let _ ← IO.FS.Handle.mk path .read
    return true
  catch _ => return false

def environment (names : List String) : IO Environment := do
  let found ← names.filterMapM fun name => do
    return (← IO.getEnv name).map (name, ·)
  return ⟨found⟩

def requestLine (request : Request) : String :=
  (Json.ofFields [("method", .str request.method), ("address", .str request.address.text),
    ("headers", .ofFields (request.headers.map fun header => (header.1, .str header.2))),
    ("body", .str request.body)]).compact

def replyOf (line : String) : Reply :=
  let value := (Json.parse line).toOption.getD .null
  match value.get? "status", (value.get? "body").bind Json.string? with
  | some (.int status), some body => .received status.val.toNat body
  | _, _ => .lost "no reply"

def exchange (request : Request) : IO Reply := do
  IO.eprintln (requestLine request)
  return replyOf (← (← IO.getStdin).getLine)

def httpRequest (line : String) : Surface.HttpRequest :=
  let value := (Json.parse line).toOption.getD .null
  let text := fun name => (value.get? name).bind Json.string?
  { method := (text "method").getD "GET"
    target := (text "target").getD "/"
    contentType := text "content_type"
    body := (text "body").getD "" }

def responseLine (response : Surface.HttpResponse) : String :=
  (Json.ofFields [("status", .ofUInt64 response.status.toUInt64),
    ("content_type", .ofOption response.contentType), ("body", .str response.body)]).compact

structure Serving where
  registry : Registry
  watch : Option Surface.Watch
  seen : Option String := none

def Serving.refresh (serving : Serving) : IO Serving := do
  let now ← IO.monoMsNow
  let registry := serving.registry.fire now
  match serving.watch with
  | none => return { serving with registry }
  | some watch =>
      let text := (← readText watch.path).toOption
      if text = serving.seen then return { serving with registry }
      let (watch, registry) := watch.notice text registry
      return ⟨registry.settle now, some watch, text⟩

partial def serveLines (serving : Serving) : IO Unit := do
  let line ← (← IO.getStdin).getLine
  if line.isEmpty then return
  let serving ← serving.refresh
  let (response, registry) := Surface.respond serving.registry (httpRequest line)
  IO.println (responseLine response)
  serveLines { serving with registry := registry.settle (← IO.monoMsNow) }

def terminal : Terminal IO where
  readText := readText
  writeText := writeText
  environment := environment
  exchange := exchange
  print text := do
    IO.print text
    (← IO.getStdout).flush
  pause interval := IO.sleep interval.toUInt32
  rounds := 1000000000000
  obstacles _ watch := do
    match watch with
    | none => return {}
    | some path => return { cannotWatch := !(← isReadable (Surface.Watch.folder path)) }
  listen registry _ watch := serveLines { registry, watch := watch.map fun path => ⟨path, true⟩ }

end LivePreview.Main

def main (words : List String) : IO UInt32 := do
  let outcome ← LivePreview.CommandLine.run LivePreview.Main.terminal words
  match outcome.message with
  | some message => IO.eprintln message
  | none => pure ()
  return outcome.code.toUInt32
