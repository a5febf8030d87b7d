import LivePreview.Session.Basic

namespace LivePreview

structure View where
  phase : Phase
  error : Option String
  crossfade : Bool
  emptyMessage : Option String
  generation : Generation
  hasDocument : Bool
  deriving DecidableEq, Repr

namespace View

def emptyText : String :=
  "Nothing to preview yet. Write a component named App to see it here."

def ofSession {ε : Type} (session : Session ε) : View :=
  { phase := session.phase
    error := session.error
    crossfade := session.crossfade
    emptyMessage := if session.phase = .idle then some emptyText else none
    generation := session.generation
    hasDocument := session.host.live }

def fields (view : View) : List (String × Json) :=
  [("state", .str view.phase.text),
    ("error", .ofOption view.error),
    ("crossfade", .bool view.crossfade),
    ("empty_message", .ofOption view.emptyMessage),
    ("generation", .ofUInt64 view.generation),
    ("has_document", .bool view.hasDocument)]

def toJson (view : View) : Json :=
  .ofFields view.fields

end View

end LivePreview
