import LivePreview.Source.Basic
import LivePreview.Session.Timing
import LivePreview.Guest.Host
import LivePreview.Guest.Log

/-!
A session is idle without a program, loading until its guest reports that the document has loaded,
then ready; an error may lie over a load. A failed load blocks the session until the next one. Time
is given in milliseconds with every call, so a session is determined by its calls.
-/

namespace LivePreview

inductive Phase where
  | idle
  | loading
  | ready
  deriving DecidableEq, Repr

def Phase.text : Phase → String
  | .idle => "idle"
  | .loading => "loading"
  | .ready => "ready"

structure Session (ε : Type) where
  id : String
  host : Host ε
  options : Document.Options
  timing : Timing
  phase : Phase := .idle
  error : Option String := none
  blocked : Bool := false
  crossfade : Bool := false
  crossfadeDue : Option Nat := none
  loadDue : Option Nat := none
  source : Option Source := none
  refreshToken : Option UInt64 := none
  document : Option Document := none

structure Handled (ε : Type) where
  accepted : Bool
  session : Session ε
  entry : Option LogRecord := none

namespace Session

variable {ε : Type}

def start (id : String) (engine : ε) (options : Document.Options) (timing : Timing) : Session ε :=
  { id, host := { engine }, options, timing }

def generation (session : Session ε) : Generation :=
  session.host.generation

def clear (session : Session ε) : Session ε :=
  { session with
    phase := .idle
    error := none
    blocked := false
    crossfade := false
    crossfadeDue := none
    loadDue := none
    document := none }

def fail (session : Session ε) (message : String) : Session ε :=
  { session with
    phase := .loading
    error := some message
    blocked := true
    crossfade := false
    crossfadeDue := none
    loadDue := none }

def see (session : Session ε) (token : UInt64) : Session ε :=
  { session with refreshToken := some (session.refreshToken.elim token (max · token)) }

def asksRefresh (session : Session ε) (token : UInt64) : Bool :=
  session.refreshToken.any (· < token)

def finishLoad (session : Session ε) (now : Nat) : Session ε :=
  let session :=
    { session with
      loadDue := none
      crossfadeDue := some (now + session.timing.crossfade) }
  if session.blocked then session else { session with phase := .ready, error := none }

def orDefault (message text : String) : String :=
  if message.isEmpty then text else message

def handle (session : Session ε) (event : GuestReport) (now : Nat) : Handled ε :=
  if session.host.accepts event.generation then
    match event.signal with
    | .loaded => ⟨true, session.finishLoad now, none⟩
    | .loadFailed error => ⟨true, session.fail (orDefault error "Preview failed to load"), none⟩
    | .mountFailed error => ⟨true, session.fail (orDefault error "Mount failed"), none⟩
    | .bridge channel payload =>
        if channel = LogRecord.channel then
          ⟨true, session, some ⟨session.id, event.generation, logText payload⟩⟩
        else ⟨true, session, none⟩
  else ⟨false, session, none⟩

def timeoutMessage (timing : Timing) : String :=
  "Preview did not finish loading within " ++ toString timing.loadTimeoutMs.toNat ++ " ms"

def isDue (deadline : Option Nat) (now : Nat) : Bool :=
  deadline.any (· ≤ now)

def endCrossfade (session : Session ε) (now : Nat) : Session ε :=
  if isDue session.crossfadeDue now then
    { session with crossfade := false, crossfadeDue := none }
  else session

def expireLoad (session : Session ε) (now : Nat) : Session ε :=
  if isDue session.loadDue now then
    if session.phase = .loading ∧ session.error = none then
      { session with loadDue := none, error := some (timeoutMessage session.timing) }
    else { session with loadDue := none }
  else session

def tick (session : Session ε) (now : Nat) : Session ε :=
  (session.endCrossfade now).expireLoad now

def nextTick (session : Session ε) : Option Nat :=
  match session.crossfadeDue, session.loadDue with
  | some a, some b => some (min a b)
  | some a, none => some a
  | none, b => b

variable [Engine ε]

def reload (session : Session ε) (document : Document) (now : Nat) :
    Except GuestFailure Unit × Session ε :=
  let (result, host) := session.host.load document
  let loading :=
    { session with
      host
      phase := .loading
      error := none
      blocked := false
      crossfade := true
      crossfadeDue := none
      loadDue := session.timing.loadLimit.map (now + ·)
      document := some document }
  match result with
  | .ok _ => (.ok (), loading)
  | .error error => (.error error, loading.fail error.message)

/-- Gives the session its current source. A new source is loaded; an unchanged one only when the
token has moved past the greatest one seen, after a teardown. -/
def update (session : Session ε) (source : Source) (token : UInt64) (now : Nat) :
    Except GuestFailure Unit × Session ε :=
  if session.host.closed then (.error .closed, session)
  else
    let refresh := session.asksRefresh token
    let session := session.see token
    if source.isEmpty then
      (.ok (), { session.clear with host := session.host.teardown, source := none })
    else if session.source = some source then
      if refresh then
        let session := { session with host := session.host.teardown }
        session.reload (.ofSource source.text session.options) now
      else (.ok (), session)
    else
      let session := { session with source := some source }
      session.reload (.ofSource source.text session.options) now

def close (session : Session ε) : Session ε :=
  if session.host.closed then session else { session.clear with host := session.host.close }

end Session

end LivePreview
