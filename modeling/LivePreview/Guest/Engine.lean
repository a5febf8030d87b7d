import LivePreview.Document.Basic

namespace LivePreview

abbrev Generation := UInt64

inductive GuestFailure where
  | closed
  | engine (message : String)
  deriving DecidableEq, Repr

def GuestFailure.message : GuestFailure → String
  | .closed => "session is closed"
  | .engine message => "guest engine: " ++ message

/-- `load` replaces what the engine runs by a document; `teardown` ends it. -/
class Engine (ε : Type) where
  load : ε → Generation → Document → Except GuestFailure Unit × ε
  teardown : ε → ε

inductive EngineCall where
  | load (generation : Generation) (document : Document)
  | teardown
  deriving DecidableEq, Repr

structure TracedEngine where
  ops : List EngineCall := []
  refusal : Option String := none
  deriving DecidableEq, Repr

namespace TracedEngine

/-- A refused load leaves no record. -/
def load (engine : TracedEngine) (generation : Generation) (document : Document) :
    Except GuestFailure Unit × TracedEngine :=
  match engine.refusal with
  | some message => (.error (.engine message), { engine with refusal := none })
  | none => (.ok (), { engine with ops := engine.ops ++ [.load generation document] })

def teardown (engine : TracedEngine) : TracedEngine :=
  { engine with ops := engine.ops ++ [.teardown] }

instance : Engine TracedEngine where
  load := load
  teardown := teardown

def refuseNext (engine : TracedEngine) (message : String) : TracedEngine :=
  { engine with refusal := some message }

def documents (engine : TracedEngine) : List Document :=
  engine.ops.filterMap fun op =>
    match op with
    | .load _ document => some document
    | .teardown => none

end TracedEngine

end LivePreview
