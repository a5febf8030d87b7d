import LivePreview.Proofs.Surface.Turn

/-!
What an actor shares with the pages: the slot, the published view and the events it has sent. It
writes to them one at a time, each state before the event that announces it.
-/

namespace LivePreview

structure Board where
  slot : Option (Generation × Document)
  view : View
  sent : List PageEvent := []

inductive BoardWrite where
  | hold (slot : Option (Generation × Document))
  | publish (view : View)
  | send (event : PageEvent)

namespace Board

def write (board : Board) : BoardWrite → Board
  | .hold slot => { board with slot }
  | .publish view => { board with view }
  | .send event => { board with sent := board.sent ++ [event] }

def writeAll (board : Board) (writes : List BoardWrite) : Board :=
  writes.foldl write board

@[simp] theorem writeAll_nil (board : Board) : board.writeAll [] = board := rfl

@[simp] theorem writeAll_cons (board : Board) (w : BoardWrite) (writes : List BoardWrite) :
    board.writeAll (w :: writes) = (board.write w).writeAll writes := rfl

theorem writeAll_append (board : Board) (before after : List BoardWrite) :
    board.writeAll (before ++ after) = (board.writeAll before).writeAll after :=
  List.foldl_append

end Board

def EngineAct.writes : EngineAct → List BoardWrite
  | .loaded generation document =>
      [.hold (some (generation, document)), .send (.load generation)]
  | .refused _ _ _ => []
  | .tornDown => [.hold none, .send .teardown]

def View.announcement (view shown : View) : List BoardWrite :=
  if view = shown then [] else [.publish view, .send (.view view)]

namespace PageEngine

def board (engine : PageEngine) (view : View) : Board :=
  { slot := engine.slot, view, sent := engine.sent }

theorem board_teardown (host : Host PageEngine) (view : View) :
    host.teardown.engine.board view =
      (host.engine.board view).writeAll (host.teardownActs.flatMap EngineAct.writes) := by
  cases hl : host.live <;>
    simp [Host.teardown, Host.teardownActs, hl, Engine.teardown, teardown, board, Board.writeAll,
      Board.write, EngineAct.writes, send]

theorem board_reload {s : Session PageEngine} (h : s.host.closed = false) (document : Document)
    (now : Nat) (view : View) :
    (s.reload document now).2.host.engine.board view =
      (s.host.engine.board view).writeAll
        ((s.host.loadActs document).flatMap EngineAct.writes) := by
  rw [Session.reload_eq h]
  rfl

theorem board_reloads {s t : Session PageEngine} {source : Source} {token : UInt64}
    (h : s.Reloads source token t) (view : View) :
    t.host.engine.board view = (s.host.engine.board view).writeAll
      ((if s.source = some source then s.host.teardownActs else []).flatMap EngineAct.writes) := by
  cases h with
  | refresh hu ht =>
    rw [if_pos hu]
    exact board_teardown s.host view
  | change hu =>
    rw [if_neg hu]
    rfl

theorem board_step (s : Session PageEngine) {call : SessionCall PageEngine}
    (hcall : ∀ move, call ≠ .engineMoves move) (view : View) :
    (s.step call).host.engine.board view =
      (s.host.engine.board view).writeAll ((s.actsOf call).flatMap EngineAct.writes) := by
  cases call with
  | update source token now =>
    change (s.update source token now).2.host.engine.board view = _
    rcases s.update_cases source token now with
      ⟨hc, hu⟩ | ⟨hc, hs, hu⟩ | ⟨hc, hs, he, ht, hu⟩ | ⟨hc, hs, t, ht, hu⟩
    · rw [hu, Session.actsOf_update, if_pos hc]
      rfl
    · rw [hu, Session.actsOf_update, hc, hs]
      exact board_teardown s.host view
    · rw [hu, Session.actsOf_update]
      simp only [hc, hs, he, ht, Bool.false_eq_true, if_false, if_true]
      rfl
    · rw [hu, Session.actsOf_of_reloads hc hs ht, List.flatMap_append, Board.writeAll_append,
        ← board_reloads ht]
      exact board_reload (by rw [ht.closed_eq, hc]) _ now view
  | handle event now =>
    rw [Session.actsOf_handle, Session.step, Session.handle_host]
    rfl
  | tick now =>
    rw [Session.actsOf_tick, Session.step, Session.tick_host]
    rfl
  | close =>
    rw [Session.actsOf_close, Session.step, Session.close]
    cases hc : s.host.closed with
    | true => rfl
    | false =>
      simp only [Bool.false_eq_true, if_false, Host.close, hc]
      exact board_teardown s.host view
  | engineMoves move => exact absurd rfl (hcall move)

end PageEngine

namespace Actor

variable {actor : Actor}

def board (actor : Actor) : Board :=
  actor.engine.board actor.view

def asked (actor : Actor) (now : Nat) : Command → List (SessionCall PageEngine)
  | .update source token => [.update source (updateToken actor.session token) now]
  | .refresh =>
      actor.lastSource.toList.map (.update · (nextToken actor.session) now)
  | .guest event => [.handle event now]
  | .close => [.close]

def asks (actor : Actor) : ActorCall → List (SessionCall PageEngine)
  | .enqueue _ => []
  | .turn now => (actor.takes (.turn now)).flatMap (actor.asked now)
  | .timer now => if actor.nextTick.any (· ≤ now) then [.tick now] else []

def writes (actor : Actor) (c : ActorCall) : List BoardWrite :=
  (actor.session.acts (actor.asks c)).flatMap EngineAct.writes ++
    View.announcement (.ofSession (actor.session.run (actor.asks c))) actor.view

theorem perform_session (actor : Actor) (command : Command) (now : Nat) :
    (actor.perform command now).actor.session = actor.session.run (actor.asked now command) := by
  cases command with
  | refresh =>
    rw [perform_refresh, asked]
    cases actor.lastSource <;> rfl
  | update | guest | close => rfl

theorem perform_view (actor : Actor) (command : Command) (now : Nat) :
    (actor.perform command now).actor.view = actor.view := by
  cases command with
  | refresh => rw [perform_refresh]
  | update | guest | close => rfl

theorem board_publish (actor : Actor) :
    actor.publish.board =
      actor.board.writeAll (View.announcement (.ofSession actor.session) actor.view) := by
  unfold publish View.announcement
  dsimp only
  split <;> rfl

theorem board_run (s : Session PageEngine) (view : View) {calls : List (SessionCall PageEngine)}
    (hcalls : ∀ move, .engineMoves move ∉ calls) :
    (s.run calls).host.engine.board view =
      (s.host.engine.board view).writeAll ((s.acts calls).flatMap EngineAct.writes) := by
  induction calls generalizing s with
  | nil => rfl
  | cons call calls ih =>
    simp only [List.mem_cons, not_or] at hcalls
    rw [Session.run_cons, ih (s.step call) fun move => (hcalls move).2,
      PageEngine.board_step s fun move h => (hcalls move).1 h.symm, Session.acts,
      List.flatMap_append, Board.writeAll_append]

theorem not_engineMoves_mem_asks (actor : Actor) (c : ActorCall) (move : PageEngine → PageEngine) :
    .engineMoves move ∉ actor.asks c := by
  cases c with
  | enqueue command => exact List.not_mem_nil
  | turn now =>
    intro h
    obtain ⟨command, -, h⟩ := List.mem_flatMap.1 h
    cases command <;> simp [asked] at h
  | timer now =>
    simp only [asks]
    split <;> simp

theorem Current.writes_of_quiet (h : actor.Current) {c : ActorCall} (hquiet : actor.asks c = []) :
    actor.writes c = [] := by
  rw [writes, hquiet]
  exact if_pos h.view_eq.symm

theorem asks_of_cons {command : Command} {queue : List Command} (hf : actor.finished = false)
    (hq : actor.queue = command :: queue) (now : Nat) :
    actor.asks (.turn now) = actor.asked now command := by
  simp [asks, takes, hf, hq]

theorem board_publish_asked {other : Actor} {c : ActorCall}
    (hs : other.session = actor.session.run (actor.asks c)) (hv : other.view = actor.view) :
    other.publish.board = actor.board.writeAll (actor.writes c) := by
  rw [board_publish, writes, Board.writeAll_append, board, engine, hs, hv,
    board_run _ _ (actor.not_engineMoves_mem_asks c)]
  rfl

theorem Current.board_call (h : actor.Current) (c : ActorCall) :
    (actor.call c).actor.board = actor.board.writeAll (actor.writes c) := by
  cases c with
  | enqueue command =>
    rw [h.writes_of_quiet rfl, call, enqueue]
    split <;> rfl
  | turn now =>
    cases hf : actor.finished with
    | true =>
      rw [h.writes_of_quiet (by simp [asks, takes, hf]), call, step_of_finished hf]
      rfl
    | false =>
      cases hq : actor.queue with
      | nil =>
        rw [h.writes_of_quiet (by simp [asks, takes, hq]), call, step_of_nil hq]
        rfl
      | cons command queue =>
        rw [call, step_of_cons hf hq]
        refine board_publish_asked ?_ (perform_view _ command now)
        rw [asks_of_cons hf hq]
        exact perform_session { actor with queue } command now
  | timer now =>
    rw [call, fire]
    cases hdue : actor.nextTick.any (· ≤ now) with
    | false =>
      rw [h.writes_of_quiet (by simp [asks, hdue])]
      rfl
    | true =>
      have hasks : actor.asks (.timer now) = [.tick now] := by simp [asks, hdue]
      exact board_publish_asked (by rw [hasks]; rfl) rfl

end Actor

end LivePreview
