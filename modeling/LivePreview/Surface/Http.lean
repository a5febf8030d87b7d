import LivePreview.Settings.Basic
import LivePreview.Text.Parts
import LivePreview.Text.Percent
import LivePreview.Address.Basic
import LivePreview.Surface.Registry
import LivePreview.Surface.MediaType
import LivePreview.Surface.Shell

/-!
Surfaces over HTTP. A path leads to a resource, a resource allows some methods, and the parts of a
request are checked in order: path, content type, body, then the session it is about.
-/

namespace LivePreview.Surface

structure HttpRequest where
  method : String
  target : String
  contentType : Option String := none
  body : String := ""
  deriving DecidableEq, Repr

structure HttpResponse where
  status : Nat
  contentType : Option String := none
  cacheControl : Option String := none
  body : String := ""
  deriving DecidableEq, Repr

namespace HttpResponse

def empty (status : Nat) : HttpResponse :=
  { status }

def text (body : String) : HttpResponse :=
  { status := 200, contentType := some "text/plain; charset=utf-8", body }

def json (status : Nat) (value : Json) : HttpResponse :=
  { status, contentType := some "application/json", body := value.compact }

def html (body : String) (cacheControl : Option String) : HttpResponse :=
  { status := 200, contentType := some "text/html; charset=utf-8", cacheControl, body }

def error (error : SurfaceError) : HttpResponse :=
  json error.kind.status error.body

end HttpResponse

inductive Resource where
  | health
  | sessions
  | session (id : String)
  | source (id : String)
  | refresh (id : String)
  | page (id : String)
  | events (id : String)
  | document (id : String) (generation : String)
  | guest (id : String)
  deriving DecidableEq, Repr

namespace Resource

def withoutHost (target : List Char) : List Char :=
  match target.dropWhile Address.isSchemeChar with
  | ':' :: '/' :: '/' :: rest => rest.dropWhile fun c => c != '/' && !Address.isPathEnd c
  | _ => target

def segments (target : String) : List String :=
  let path := (withoutHost target.toList).takeWhile fun c => !Address.isPathEnd c
  (Text.splitWhere (· == '/') path).map .ofList

def ofTarget? (target : String) : Option Resource :=
  match segments target with
  | ["", "health"] => some .health
  | ["", "api", "sessions"] => some .sessions
  | ["", "api", "sessions", id] => if id.isEmpty then none else some (.session id)
  | ["", "api", "sessions", id, "source"] => some (.source id)
  | ["", "api", "sessions", id, "refresh"] => some (.refresh id)
  | ["", "sessions", id, ""] => some (.page id)
  | ["", "sessions", id, "events"] => some (.events id)
  | ["", "sessions", id, "doc", generation] =>
      if generation.isEmpty then none else some (.document id generation)
  | ["", "sessions", id, "guest"] => some (.guest id)
  | _ => none

def decode : Resource → Option Resource
  | .health => some .health
  | .sessions => some .sessions
  | .session id => (Text.Percent.decode? id).map .session
  | .source id => (Text.Percent.decode? id).map .source
  | .refresh id => (Text.Percent.decode? id).map .refresh
  | .page id => (Text.Percent.decode? id).map .page
  | .events id => (Text.Percent.decode? id).map .events
  | .document id generation => do
      return .document (← Text.Percent.decode? id) (← Text.Percent.decode? generation)
  | .guest id => (Text.Percent.decode? id).map .guest

def methods : Resource → List String
  | .health => ["GET"]
  | .sessions => ["GET"]
  | .session _ => ["POST", "GET", "DELETE"]
  | .source _ => ["PUT"]
  | .refresh _ => ["POST"]
  | .page _ => ["GET"]
  | .events _ => ["GET"]
  | .document _ _ => ["GET"]
  | .guest _ => ["POST"]

end Resource

def word? (s : String) : Option UInt64 :=
  let cs := s.toList
  let digits := if cs.head? = some '+' then cs.drop 1 else cs
  if digits.isEmpty || !digits.all Char.isDigit then none
  else
    let n := digits.foldl (fun n d => 10 * n + (d.toNat - '0'.toNat)) 0
    if n < UInt64.size then some (.ofNat n) else none

structure SourceBody where
  source : String := ""
  documentId : Option String := none
  refreshToken : Option UInt64 := none
  deriving DecidableEq, Repr

def sourceRecord : Json.Record SourceBody :=
  { name := "SourceRequest"
    start := {}
    slots := [
      { name := "source"
        required := true
        read := Settings.into Json.readText fun request source => { request with source } },
      { name := "document_id"
        read := Settings.into (Json.readOptional Json.readText) fun request documentId =>
          { request with documentId } },
      { name := "refresh_token"
        read := Settings.into (Json.readOptional Json.readWord) fun request refreshToken =>
          { request with refreshToken } }] }

/-- The body of a request read as JSON of some shape, or the status of the refusal. What follows the
value is not looked at. -/
def readBody {α : Type} (reader : Json.Reader α) (request : HttpRequest) : Except Nat α :=
  if !request.contentType.any MediaType.isJson then .error 415
  else
    match reader request.body.toList with
    | .ok (x, _) => .ok x
    | .error ⟨.malformed _, _, _⟩ => .error 400
    | .error ⟨.mismatch _, _, _⟩ => .error 422

def reply (result : Except SurfaceError HttpResponse) : HttpResponse :=
  match result with
  | .ok response => response
  | .error error => .error error

def replyWith (registry : Registry) (result : Except SurfaceError Registry) (status : Nat) :
    HttpResponse × Registry :=
  match result with
  | .ok registry => (.empty status, registry)
  | .error error => (.error error, registry)

def withBody {α : Type} (registry : Registry) (reader : Json.Reader α) (request : HttpRequest)
    (act : α → HttpResponse × Registry) : HttpResponse × Registry :=
  match readBody reader request with
  | .ok x => act x
  | .error status => (.empty status, registry)

def answer (registry : Registry) (method : String) (request : HttpRequest) :
    Resource → HttpResponse × Registry
  | .health => (.text "ok", registry)
  | .sessions =>
      (.json 200 (.ofFields [("sessions", .arr (registry.ids.map .str))]), registry)
  | .session id =>
      if method = "POST" then
        match registry.openSurface id with
        | .ok (view, registry) => (.json 201 view.toJson, registry)
        | .error error => (.error error, registry)
      else if method = "DELETE" then replyWith registry (registry.close id) 204
      else (reply ((registry.view id).map fun view => .json 200 view.toJson), registry)
  | .source id =>
      withBody registry sourceRecord.read request fun body =>
        let source := Source.mk (body.documentId.getD id) body.source
        replyWith registry (registry.send id (.update source body.refreshToken)) 202
  | .refresh id => replyWith registry (registry.send id .refresh) 202
  | .page id =>
      (reply ((registry.view id).map fun _ => .html (Shell.page id registry.timing) none), registry)
  | .events id =>
      (reply ((registry.subscribe id).map fun _ =>
        { status := 200, contentType := some "text/event-stream", cacheControl := some "no-cache" }),
        registry)
  | .document id generation =>
      match word? generation with
      | none => (.empty 400, registry)
      | some generation =>
          (reply ((registry.document id generation).map fun document =>
            .html document.html (some "no-store")), registry)
  | .guest id =>
      withBody registry GuestReport.read request fun event =>
        replyWith registry (registry.send id (.guest event)) 202

def effectiveMethod (method : String) : String :=
  if method = "HEAD" then "GET" else method

def answerEncoded (registry : Registry) (method : String) (request : HttpRequest)
    (resource : Resource) : HttpResponse × Registry :=
  if resource.methods.contains method then
    match resource.decode with
    | some resource => answer registry method request resource
    | none => (.empty 400, registry)
  else (.empty 405, registry)

def respond (registry : Registry) (request : HttpRequest) : HttpResponse × Registry :=
  match Resource.ofTarget? request.target with
  | none => (.empty 404, registry)
  | some resource =>
      let answered := answerEncoded registry (effectiveMethod request.method) request resource
      if request.method = "HEAD" then ({ answered.1 with body := "" }, answered.2) else answered

end LivePreview.Surface
