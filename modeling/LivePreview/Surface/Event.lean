import LivePreview.Session.View

/-!
Events that a surface sends to the pages that show it, and the guest engine behind them. The engine
keeps the live document in a slot, for pages that come later, and everything it has sent in order.
-/

namespace LivePreview

inductive PageEvent where
  | load (generation : Generation)
  | teardown
  | view (shown : View)
  deriving DecidableEq, Repr

def PageEvent.toJson : PageEvent → Json
  | .load generation => .ofFields [("type", .str "load"), ("generation", .ofUInt64 generation)]
  | .teardown => .ofFields [("type", .str "teardown")]
  | .view shown => .ofFields (("type", .str "view") :: shown.fields)

structure PageEngine where
  slot : Option (Generation × Document) := none
  sent : List PageEvent := []
  deriving DecidableEq, Repr

namespace PageEngine

def send (engine : PageEngine) (event : PageEvent) : PageEngine :=
  { engine with sent := engine.sent ++ [event] }

def load (engine : PageEngine) (generation : Generation) (document : Document) :
    Except GuestFailure Unit × PageEngine :=
  (.ok (), { engine with slot := some (generation, document) }.send (.load generation))

def teardown (engine : PageEngine) : PageEngine :=
  { engine with slot := none }.send .teardown

instance : Engine PageEngine where
  load := load
  teardown := teardown

end PageEngine

end LivePreview
