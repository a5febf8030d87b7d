import LivePreview.Surface.Actor
import LivePreview.Surface.Error

/-!
The registry of surfaces. A surface id leads to the actor that was started when the id was opened;
an actor whose id has been closed is kept, because pages may still read what it has sent. All
actors log to one log.
-/

namespace LivePreview

structure Registry where
  options : Document.Options
  timing : Timing
  actors : List Actor := []
  handles : List (String × Nat) := []
  log : List LogRecord := []

/-- A page that reads the events of one actor: what it is to be told first, and how many of the
actor's events it is past. -/
structure Subscriber where
  actor : Nat
  initial : List PageEvent
  position : Nat
  ended : Bool := false
  deriving DecidableEq, Repr

def isValidId (id : String) : Bool :=
  !id.isEmpty && id.utf8ByteSize ≤ 128
    && id.toList.all fun c => c.isAlphanum || c == '-' || c == '_' || c == '.'

namespace Registry

def handle? (registry : Registry) (id : String) : Option Nat :=
  (registry.handles.find? fun handle => handle.1 == id).map (·.2)

def actor? (registry : Registry) (id : String) : Option Actor :=
  (registry.handle? id).bind fun index => registry.actors[index]?

def find (registry : Registry) (id : String) : Except SurfaceError Actor :=
  match registry.actor? id with
  | some actor => .ok actor
  | none => .error (.unknownSession id)

def openSurface (registry : Registry) (id : String) : Except SurfaceError (View × Registry) :=
  if !isValidId id then .error (.invalidId id)
  else if (registry.handle? id).isSome then .error (.alreadyOpen id)
  else
    let actor := Actor.start id registry.options registry.timing
    .ok (actor.view,
      { registry with
        actors := registry.actors ++ [actor]
        handles := registry.handles ++ [(id, registry.actors.length)] })

def setActor (registry : Registry) (index : Nat) (actor : Actor) : Registry :=
  { registry with actors := registry.actors.set index actor }

def enqueue (registry : Registry) (index : Nat) (command : Command) : Option Registry := do
  let actor ← registry.actors[index]?
  let actor ← actor.enqueue command
  return registry.setActor index actor

def send (registry : Registry) (id : String) (command : Command) : Except SurfaceError Registry :=
  match registry.handle? id with
  | none => .error (.unknownSession id)
  | some index =>
      match registry.enqueue index command with
      | some registry => .ok registry
      | none => .error (.sessionClosed id)

/-- Forgets the id at once; the actor closes when it comes to the command. -/
def close (registry : Registry) (id : String) : Except SurfaceError Registry :=
  match registry.handle? id with
  | none => .error (.unknownSession id)
  | some index =>
      let registry :=
        { registry with handles := registry.handles.filter fun handle => handle.1 != id }
      .ok ((registry.enqueue index .close).getD registry)

def view (registry : Registry) (id : String) : Except SurfaceError View :=
  (registry.find id).map (·.view)

def document (registry : Registry) (id : String) (generation : Generation) :
    Except SurfaceError Document := do
  let actor ← registry.find id
  match actor.engine.slot with
  | some (held, document) =>
      if held = generation then .ok document else .error (.unknownDocument id generation)
  | none => .error (.unknownDocument id generation)

def ids (registry : Registry) : List String :=
  (registry.handles.map (·.1)).mergeSort (fun a b => decide (a ≤ b))

def subscribe (registry : Registry) (id : String) : Except SurfaceError Subscriber :=
  match registry.handle? id, registry.actor? id with
  | some index, some actor =>
      .ok { actor := index
            initial := .view actor.view :: (actor.engine.slot.map (.load ·.1)).toList
            position := actor.engine.sent.length }
  | _, _ => .error (.unknownSession id)

def isOpen (registry : Registry) (index : Nat) : Bool :=
  registry.handles.any fun handle => handle.2 == index

def settle (registry : Registry) (now : Nat) : Registry :=
  let acted := registry.actors.map (·.settle now)
  { registry with
    actors := acted.map (·.actor)
    log := registry.log ++ acted.flatMap (·.entries) }

def fire (registry : Registry) (now : Nat) : Registry :=
  { registry with actors := registry.actors.map (·.fire now) }

end Registry

namespace Subscriber

/-- A reader that has fallen further behind than this loses the oldest events. -/
def capacity : Nat := 64

def read (subscriber : Subscriber) (registry : Registry) : List PageEvent × Subscriber :=
  match registry.actors[subscriber.actor]? with
  | none => ([], { subscriber with ended := true })
  | some actor =>
      let sent := actor.engine.sent
      let from_ := max subscriber.position (sent.length - capacity)
      (subscriber.initial ++ sent.drop from_,
        { subscriber with
          initial := []
          position := sent.length
          ended := actor.finished && !registry.isOpen subscriber.actor })

end Subscriber

end LivePreview
