import LivePreview.Surface.Event

/-!
An actor owns the session of one surface. It takes commands from its queue one after the other, lets
timers fire between them, and publishes the view of the session after each step when it has changed.
-/

namespace LivePreview

inductive Command where
  | update (source : Source) (refreshToken : Option UInt64)
  | refresh
  | guest (event : GuestReport)
  | close

structure Actor where
  session : Session PageEngine
  view : View
  lastSource : Option Source := none
  queue : List Command := []
  finished : Bool := false

structure Acted where
  actor : Actor
  entries : List LogRecord := []

namespace Actor

def ofSession (session : Session PageEngine) : Actor :=
  { session, view := .ofSession session }

def start (id : String) (options : Document.Options) (timing : Timing) : Actor :=
  ofSession (.start id {} options timing)

def engine (actor : Actor) : PageEngine :=
  actor.session.host.engine

def send (actor : Actor) (event : PageEvent) : Actor :=
  let session := actor.session
  { actor with
    session := { session with host := { session.host with engine := actor.engine.send event } } }

def publish (actor : Actor) : Actor :=
  let view := View.ofSession actor.session
  if view = actor.view then actor else { actor with view }.send (.view view)

def updateToken (session : Session PageEngine) (token : Option UInt64) : UInt64 :=
  (token.or session.refreshToken).getD 0

/-- The token after the last one; the greatest is followed by zero. -/
def nextToken (session : Session PageEngine) : UInt64 :=
  session.refreshToken.getD 0 + 1

def perform (actor : Actor) (command : Command) (now : Nat) : Acted :=
  match command with
  | .update source token =>
      let session := (actor.session.update source (updateToken actor.session token) now).2
      ⟨{ actor with session, lastSource := some source }, []⟩
  | .refresh =>
      match actor.lastSource with
      | some source =>
          let session := (actor.session.update source (nextToken actor.session) now).2
          ⟨{ actor with session }, []⟩
      | none => ⟨actor, []⟩
  | .guest event =>
      let handled := actor.session.handle event now
      ⟨{ actor with session := handled.session }, handled.entry.toList⟩
  | .close => ⟨{ actor with session := actor.session.close, finished := true }, []⟩

def step (actor : Actor) (now : Nat) : Acted :=
  match actor.queue with
  | [] => ⟨actor, []⟩
  | command :: queue =>
      if actor.finished then ⟨{ actor with queue := [] }, []⟩
      else
        let acted := { actor with queue }.perform command now
        { acted with actor := acted.actor.publish }

def stepAll (now : Nat) : Nat → Actor → Acted
  | 0, actor => ⟨actor, []⟩
  | fuel + 1, actor =>
      let first := actor.step now
      let rest := stepAll now fuel first.actor
      ⟨rest.actor, first.entries ++ rest.entries⟩

def settle (actor : Actor) (now : Nat) : Acted :=
  stepAll now actor.queue.length actor

def nextTick (actor : Actor) : Option Nat :=
  if actor.finished then none else actor.session.nextTick

def fire (actor : Actor) (now : Nat) : Actor :=
  if actor.nextTick.any (· ≤ now) then
    { actor with session := actor.session.tick now }.publish
  else actor

def enqueue (actor : Actor) (command : Command) : Option Actor :=
  if actor.finished then none else some { actor with queue := actor.queue ++ [command] }

end Actor

end LivePreview
