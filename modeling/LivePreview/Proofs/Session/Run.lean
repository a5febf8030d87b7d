import LivePreview.Session.Basic

/-!
Runs of a session. A call is anything that can happen to a session from outside; an engine may also
move by itself between calls.
-/

namespace LivePreview

inductive SessionCall (ε : Type) where
  | update (source : Source) (token : UInt64) (now : Nat)
  | handle (event : GuestReport) (now : Nat)
  | tick (now : Nat)
  | close
  | engineMoves (move : ε → ε)

inductive EngineAct where
  | loaded (generation : Generation) (document : Document)
  | refused (generation : Generation) (document : Document) (failure : GuestFailure)
  | tornDown
  deriving DecidableEq, Repr

structure Watched (ε : Type) where
  engine : ε
  acts : List EngineAct := []

namespace Watched

variable {ε : Type} [Engine ε]

def load (watched : Watched ε) (generation : Generation) (document : Document) :
    Except GuestFailure Unit × Watched ε :=
  match Engine.load watched.engine generation document with
  | (.ok (), engine) => (.ok (), ⟨engine, watched.acts ++ [.loaded generation document]⟩)
  | (.error failure, engine) =>
      (.error failure, ⟨engine, watched.acts ++ [.refused generation document failure]⟩)

def teardown (watched : Watched ε) : Watched ε :=
  ⟨Engine.teardown watched.engine, watched.acts ++ [.tornDown]⟩

instance : Engine (Watched ε) where
  load := load
  teardown := teardown

end Watched

def SessionCall.watched {ε : Type} : SessionCall ε → SessionCall (Watched ε)
  | .update source token now => .update source token now
  | .handle event now => .handle event now
  | .tick now => .tick now
  | .close => .close
  | .engineMoves move => .engineMoves fun watched => ⟨move watched.engine, watched.acts⟩

namespace Session

variable {ε : Type}

def watched (s : Session ε) : Session (Watched ε) :=
  { s with host := { s.host with engine := ⟨s.host.engine, []⟩ } }

def withEngine (s : Session ε) (engine : ε) : Session ε :=
  { s with host := { s.host with engine } }

variable [Engine ε]

def step (s : Session ε) : SessionCall ε → Session ε
  | .update source token now => (s.update source token now).2
  | .handle event now => (s.handle event now).session
  | .tick now => s.tick now
  | .close => s.close
  | .engineMoves move => s.withEngine (move s.host.engine)

def run (s : Session ε) (calls : List (SessionCall ε)) : Session ε :=
  calls.foldl step s

def actsOf (s : Session ε) (call : SessionCall ε) : List EngineAct :=
  (s.watched.step call.watched).host.engine.acts

def acts : Session ε → List (SessionCall ε) → List EngineAct
  | _, [] => []
  | s, call :: calls => s.actsOf call ++ acts (s.step call) calls

def hears (s : Session ε) : SessionCall ε → List Signal
  | .handle event now => if (s.handle event now).accepted then [event.signal] else []
  | _ => []

def heard : Session ε → List (SessionCall ε) → List Signal
  | _, [] => []
  | s, call :: calls => s.hears call ++ heard (s.step call) calls

def sample : Session TracedEngine :=
  .start "main" {} {} {}

def sampleSource : Source :=
  ⟨"doc", "const App = 1;"⟩

@[simp] theorem run_nil (s : Session ε) : s.run [] = s := rfl

@[simp] theorem run_cons (s : Session ε) (call : SessionCall ε) (calls : List (SessionCall ε)) :
    s.run (call :: calls) = (s.step call).run calls := rfl

theorem run_append (s : Session ε) (before after : List (SessionCall ε)) :
    s.run (before ++ after) = (s.run before).run after := by
  simp [run, List.foldl_append]

end Session

end LivePreview
