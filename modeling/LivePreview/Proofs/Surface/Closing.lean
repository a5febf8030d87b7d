import LivePreview.Proofs.Session.Coherence
import LivePreview.Proofs.Session.Silence
import LivePreview.Proofs.Surface.Board

namespace LivePreview.Session

variable {ε : Type} {s : Session ε}

theorem Placed.cleared_of_closed (h : s.Placed) (hc : s.host.closed = true) : s.Cleared := by
  rcases h with h | ⟨standing, loadedAt, h⟩
  · exact h
  · rw [h.opened] at hc
    cases hc

variable [Engine ε]

structure Inert (s : Session ε) : Prop where
  update_eq : ∀ source token now, s.update source token now = (.error .closed, s)
  handle_eq : ∀ event now, s.handle event now = ⟨false, s, none⟩
  tick_eq : ∀ now, s.tick now = s
  close_eq : s.close = s
  acts_eq : ∀ call, s.actsOf call = []

theorem Placed.inert (h : s.Placed) (hc : s.host.closed = true) : s.Inert where
  update_eq := update_of_closed hc
  handle_eq event now := handle_of_not_accepts (by simp [Host.accepts, hc]) now
  tick_eq := by
    have hcleared := h.cleared_of_closed hc
    exact tick_of_no_deadline hcleared.crossfadeDue_eq hcleared.loadDue_eq
  close_eq := if_pos hc
  acts_eq call := (closed_step hc call).1

end LivePreview.Session

namespace LivePreview

def ActorCall.enqueued? : ActorCall → Option Command
  | .enqueue command => some command
  | _ => none

def untilClose : List Command → List Command
  | [] => []
  | .close :: _ => [.close]
  | command :: commands => command :: untilClose commands

theorem untilClose_cons {command : Command} (h : command ≠ .close) (commands : List Command) :
    untilClose (command :: commands) = command :: untilClose commands := by
  cases command with
  | close => exact absurd rfl h
  | update | refresh | guest => rfl

namespace Actor

variable {actor : Actor}

def ahead (actor : Actor) (later : List Command) : List Command :=
  if actor.finished then [] else untilClose (actor.queue ++ later)

def entries : Actor → List ActorCall → List LogRecord
  | _, [] => []
  | actor, c :: calls => (actor.call c).entries ++ entries (actor.call c).actor calls

theorem ahead_publish (actor : Actor) (later : List Command) :
    actor.publish.ahead later = actor.ahead later := by
  rw [publish_eq]
  rfl

theorem ahead_of_cons {command : Command} {queue : List Command} (hf : actor.finished = false)
    (hq : actor.queue = command :: queue) (later : List Command) (now : Nat) :
    actor.ahead later =
      command :: (({ actor with queue } : Actor).perform command now).actor.ahead later := by
  have hahead : actor.ahead later = untilClose (command :: (queue ++ later)) := by
    simp [ahead, hf, hq]
  by_cases hclose : command = .close
  · rw [hahead, hclose]
    rfl
  · have hrunning := perform_running { actor with queue } hclose hf now
    have hqueue := perform_queue { actor with queue } command now
    rw [hahead, untilClose_cons hclose, ahead, hrunning, hqueue]
    rfl

theorem ahead_call (actor : Actor) (c : ActorCall) (later : List Command) :
    actor.takes c ++ (actor.call c).actor.ahead later =
      actor.ahead (c.enqueued?.toList ++ later) := by
  cases c with
  | enqueue command =>
    cases hf : actor.finished <;>
      simp [takes, call, enqueue, ahead, hf, ActorCall.enqueued?]
  | turn now =>
    cases hf : actor.finished with
    | true =>
      rw [call, step_of_finished hf]
      simp [takes, ahead, hf]
    | false =>
      cases hq : actor.queue with
      | nil =>
        rw [call, step_of_nil hq]
        simp [takes, hq, ActorCall.enqueued?]
      | cons command queue =>
        rw [call, step_of_cons hf hq, ahead_publish]
        simp only [takes, hf, hq, ActorCall.enqueued?, Option.toList_none, List.nil_append,
          ahead_of_cons hf hq later now]
        rfl
  | timer now =>
    simp only [call, fire]
    split
    · rw [ahead_publish]
      rfl
    · rfl

theorem taken_append_ahead (actor : Actor) (calls : List ActorCall) :
    actor.taken calls ++ (actor.run calls).ahead [] =
      actor.ahead (calls.filterMap ActorCall.enqueued?) := by
  induction calls generalizing actor with
  | nil => rfl
  | cons c calls ih =>
    change (actor.takes c ++ (actor.call c).actor.taken calls) ++
      ((actor.call c).actor.run calls).ahead [] = _
    rw [List.append_assoc, ih, ahead_call]
    cases h : c.enqueued? <;> simp [h]

theorem finished_call_iff (actor : Actor) (c : ActorCall) :
    (actor.call c).actor.finished = true ↔ actor.finished = true ∨ .close ∈ actor.takes c := by
  cases c with
  | enqueue command => cases hf : actor.finished <;> simp [takes, call, enqueue, hf]
  | turn now =>
    cases hf : actor.finished with
    | true =>
      rw [call, step_of_finished hf]
      simp [hf]
    | false =>
      cases hq : actor.queue with
      | nil =>
        rw [call, step_of_nil hq]
        simp [takes, hf, hq]
      | cons command queue =>
        rw [call, step_of_cons hf hq, publish_eq]
        by_cases hclose : command = .close
        · subst hclose
          simp [takes, hf, hq, perform]
        · have hrunning := perform_running { actor with queue } hclose hf now
          simpa [takes, hf, hq, Ne.symm hclose] using hrunning
  | timer now =>
    simp only [call, fire, takes]
    split
    · simp [publish_eq]
    · simp

theorem finished_run_iff (actor : Actor) (calls : List ActorCall) :
    (actor.run calls).finished = true ↔ actor.finished = true ∨ .close ∈ actor.taken calls := by
  induction calls generalizing actor with
  | nil => simp [run, taken]
  | cons c calls ih =>
    change ((actor.call c).actor.run calls).finished = true ↔ _
    rw [ih, finished_call_iff, taken, List.mem_append, or_assoc]

theorem step_queue_length (actor : Actor) (now : Nat) :
    (actor.step now).actor.queue.length ≤ actor.queue.length - 1 := by
  cases hf : actor.finished with
  | true => simp [step_of_finished hf]
  | false =>
    cases hq : actor.queue with
    | nil => simp [step_of_nil hq, hq]
    | cons command queue => simp [step_of_cons hf hq, publish_eq, perform_queue]

theorem queue_of_turns (now count : Nat) (h : actor.queue.length ≤ count) :
    (actor.run (List.replicate count (.turn now))).queue = [] := by
  induction count generalizing actor with
  | zero => exact List.length_eq_zero_iff.1 (Nat.le_zero.1 h)
  | succ count ih =>
    have hlength := actor.step_queue_length now
    change ((actor.step now).actor.run (List.replicate count (.turn now))).queue = []
    exact ih (by omega)

def told (shown : View) (s : Session PageEngine) : List PageEvent :=
  if View.ofSession s = shown then [] else [.view (.ofSession s)]

def doings (actor : Actor) (c : ActorCall) : List (SessionCall PageEngine) :=
  actor.asks c ++ [.engineMoves (·.announce (told actor.view (actor.session.run (actor.asks c))))]

def history : Actor → List ActorCall → List (SessionCall PageEngine)
  | _, [] => []
  | actor, c :: calls => actor.doings c ++ history (actor.call c).actor calls

theorem run_doings (actor : Actor) (c : ActorCall) :
    actor.session.run (actor.doings c) = (actor.session.run (actor.asks c)).withEngine
      ((actor.session.run (actor.asks c)).host.engine.announce
        (told actor.view (actor.session.run (actor.asks c)))) := by
  rw [doings, Session.run_append]
  rfl

theorem session_publish_asked {other : Actor} {c : ActorCall}
    (hs : other.session = actor.session.run (actor.asks c)) (hv : other.view = actor.view) :
    other.publish.session = actor.session.run (actor.doings c) := by
  rw [run_doings, ← hs, ← hv, publish_eq]
  rfl

theorem Current.doings_of_quiet (h : actor.Current) {c : ActorCall} (hquiet : actor.asks c = []) :
    actor.session.run (actor.doings c) = actor.session := by
  rw [run_doings, hquiet, Session.run_nil, told, if_pos h.view_eq.symm]
  simp [PageEngine.announce, Session.withEngine]

theorem Current.call_session (h : actor.Current) (c : ActorCall) :
    (actor.call c).actor.session = actor.session.run (actor.doings c) := by
  cases c with
  | enqueue command =>
    rw [h.doings_of_quiet rfl, call, enqueue]
    split <;> rfl
  | turn now =>
    cases hf : actor.finished with
    | true =>
      rw [h.doings_of_quiet (by simp [asks, takes, hf]), call, step_of_finished hf]
    | false =>
      cases hq : actor.queue with
      | nil => rw [h.doings_of_quiet (by simp [asks, takes, hq]), call, step_of_nil hq]
      | cons command queue =>
        rw [call, step_of_cons hf hq]
        refine session_publish_asked ?_ (perform_view _ command now)
        rw [asks_of_cons hf hq]
        exact perform_session { actor with queue } command now
  | timer now =>
    rw [call, fire]
    cases hdue : actor.nextTick.any (· ≤ now) with
    | false => exact (h.doings_of_quiet (by simp [asks, hdue])).symm
    | true =>
      have hasks : actor.asks (.timer now) = [.tick now] := by simp [asks, hdue]
      exact session_publish_asked (by rw [hasks]; rfl) rfl

theorem Current.run_session (h : actor.Current) (calls : List ActorCall) :
    (actor.run calls).session = actor.session.run (actor.history calls) := by
  induction calls generalizing actor with
  | nil => rfl
  | cons c calls ih =>
    have hnext : (actor.call c).actor.Current := h.run [c]
    change ((actor.call c).actor.run calls).session = _
    rw [ih hnext, h.call_session, history, Session.run_append]

theorem placed_run (id : String) (options : Document.Options) (timing : Timing)
    (calls : List ActorCall) : ((start id options timing).run calls).session.Placed := by
  rw [(current_start id options timing).run_session]
  exact (Session.placed_start id ({} : PageEngine) options timing).run _

theorem finished_call (hf : actor.finished = true) (c : ActorCall) :
    ∃ queue, actor.call c = ⟨{ actor with queue }, []⟩ := by
  cases c with
  | enqueue command =>
    refine ⟨actor.queue, ?_⟩
    rw [call, enqueue, if_pos hf]
    rfl
  | turn now => exact ⟨[], step_of_finished hf now⟩
  | timer now =>
    refine ⟨actor.queue, ?_⟩
    rw [call, fire, nextTick, if_pos hf]
    rfl

theorem finished_run (hf : actor.finished = true) (calls : List ActorCall) :
    actor.entries calls = [] ∧ ∃ queue, actor.run calls = { actor with queue } := by
  induction calls generalizing actor with
  | nil => exact ⟨rfl, actor.queue, rfl⟩
  | cons c calls ih =>
    obtain ⟨queue, hcall⟩ := finished_call hf c
    obtain ⟨hentries, last, hrun⟩ := @ih { actor with queue } hf
    refine ⟨?_, last, ?_⟩
    · rw [entries, hcall, hentries]
      rfl
    · change (actor.call c).actor.run calls = _
      rw [hcall, hrun]

structure Ended (actor : Actor) : Prop where
  slot_eq : actor.engine.slot = none
  phase_eq : actor.view.phase = .idle
  hasDocument_eq : actor.view.hasDocument = false
  entries_eq : ∀ calls, actor.entries calls = []
  run_eq : ∀ calls, ∃ queue, actor.run calls = { actor with queue }

theorem Current.ended (h : actor.Current) (hplaced : actor.session.Placed)
    (hf : actor.finished = true) : actor.Ended := by
  have hcleared := hplaced.cleared_of_closed (h.closed_eq.trans hf)
  refine ⟨h.mounted.slot_of_not_live hcleared.dead, ?_, ?_, fun calls => (finished_run hf calls).1,
    fun calls => (finished_run hf calls).2⟩
  · rw [h.view_eq]
    exact hcleared.phase_eq
  · rw [h.view_eq]
    exact hcleared.dead

/-- An actor takes up the commands that were queued until the first close, in their order, and has done
so after a turn for each that waits; with the close it ends. A closed session is inert. -/
theorem closing_ends {ε : Type} [Engine ε] (id : String) (engine : ε) (options : Document.Options)
    (timing : Timing) (calls : List ActorCall) (now : Nat)
    (before after : List (SessionCall ε)) :
    let first := start id options timing
    let actor := first.run calls
    let turns := List.replicate actor.queue.length (.turn now)
    let queued := calls.filterMap ActorCall.enqueued?
    first.taken calls ++ actor.ahead [] = untilClose queued ∧
    first.taken (calls ++ turns) = untilClose queued ∧
    actor.session = first.session.run (first.history calls) ∧
    (actor.finished = true ↔ .close ∈ first.taken calls) ∧
    (actor.finished = true → actor.Ended) ∧
    ((Session.start id engine options timing).run (before ++ .close :: after)).Inert := by
  intro first actor turns queued
  have hahead : ∀ commands, first.ahead commands = untilClose commands := fun _ => rfl
  have htaken := first.taken_append_ahead calls
  have hturns := first.taken_append_ahead (calls ++ turns)
  have hspent : (first.run (calls ++ turns)).ahead [] = [] := by
    have hqueue : (first.run (calls ++ turns)).queue = [] := by
      rw [run, List.foldl_append]
      exact queue_of_turns now _ (Nat.le_refl _)
    simp [ahead, hqueue, untilClose]
  have hquiet : turns.filterMap ActorCall.enqueued? = [] :=
    List.filterMap_replicate_of_none rfl
  have hcurrent := (current_start id options timing).run calls
  refine ⟨htaken, ?_, (current_start id options timing).run_session calls, ?_,
    hcurrent.ended (placed_run id options timing calls), ?_⟩
  · rw [hspent, List.append_nil, List.filterMap_append, hquiet, List.append_nil] at hturns
    exact hturns
  · rw [finished_run_iff]
    exact or_iff_right fun h => by cases h
  · have hplaced := Session.placed_start id engine options timing
    refine (hplaced.run (before ++ .close :: after)).inert ?_
    rw [Session.run_append, Session.run_cons]
    exact Session.closed_run (Session.closed_close _) after

end Actor

end LivePreview
