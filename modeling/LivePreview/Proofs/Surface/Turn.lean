import LivePreview.Surface.Actor
import LivePreview.Proofs.Surface.Slot

/-!
Runs of an actor. After each turn the published view is that of the session, and the session shows
the last source that was taken up.
-/

namespace LivePreview

inductive ActorCall where
  | enqueue (command : Command)
  | turn (now : Nat)
  | timer (now : Nat)

def Command.source? : Command → Option Source
  | .update source _ => some source
  | _ => none

namespace PageEngine

def announce (engine : PageEngine) (events : List PageEvent) : PageEngine :=
  { engine with sent := engine.sent ++ events }

end PageEngine

namespace Actor

def call (actor : Actor) : ActorCall → Acted
  | .enqueue command => ⟨(actor.enqueue command).getD actor, []⟩
  | .turn now => actor.step now
  | .timer now => ⟨actor.fire now, []⟩

def run (actor : Actor) (calls : List ActorCall) : Actor :=
  calls.foldl (fun actor call => (actor.call call).actor) actor

def takes (actor : Actor) : ActorCall → List Command
  | .turn _ => if actor.finished then [] else actor.queue.take 1
  | _ => []

def taken : Actor → List ActorCall → List Command
  | _, [] => []
  | actor, call :: calls => actor.takes call ++ taken (actor.call call).actor calls

def news (actor : Actor) : List PageEvent :=
  if View.ofSession actor.session = actor.view then [] else [.view (.ofSession actor.session)]

variable {actor : Actor}

theorem publish_eq (actor : Actor) :
    actor.publish = { actor with
      view := .ofSession actor.session
      session := actor.session.withEngine (actor.engine.announce actor.news) } := by
  unfold publish news
  dsimp only
  split
  · rename_i hview
    rw [hview]
    simp [PageEngine.announce, Session.withEngine, engine]
  · rfl

theorem perform_refresh (actor : Actor) (now : Nat) :
    actor.perform .refresh now = ⟨{ actor with
      session := actor.lastSource.elim actor.session fun source =>
        (actor.session.update source (nextToken actor.session) now).2 }, []⟩ := by
  obtain ⟨session, view, lastSource, queue, finished⟩ := actor
  cases lastSource <;> rfl

theorem step_of_cons {command : Command} {queue : List Command} (hf : actor.finished = false)
    (hq : actor.queue = command :: queue) (now : Nat) :
    actor.step now =
      ⟨(({ actor with queue } : Actor).perform command now).actor.publish,
        (({ actor with queue } : Actor).perform command now).entries⟩ := by
  simp [step, hq, hf]

theorem step_of_finished (hf : actor.finished = true) (now : Nat) :
    actor.step now = ⟨{ actor with queue := [] }, []⟩ := by
  cases hq : actor.queue with
  | nil =>
    simp only [step, hq]
    rw [← hq]
  | cons command queue => simp [step, hq, hf]

theorem step_of_nil (hq : actor.queue = []) (now : Nat) : actor.step now = ⟨actor, []⟩ := by
  simp [step, hq]

theorem invariant_call {P : Actor → Prop}
    (hqueue : ∀ actor queue, P actor → P { actor with queue })
    (hturn : ∀ actor command now, actor.finished = false → P actor →
      P (actor.perform command now).actor.publish)
    (htick : ∀ actor now, P actor →
      P ({ actor with session := actor.session.tick now } : Actor).publish)
    (h : P actor) (c : ActorCall) : P (actor.call c).actor := by
  cases c with
  | enqueue command =>
    simp only [call, enqueue]
    split
    · exact h
    · exact hqueue actor _ h
  | turn now =>
    simp only [call]
    cases hf : actor.finished with
    | true =>
      rw [step_of_finished hf]
      exact hqueue actor [] h
    | false =>
      cases hq : actor.queue with
      | nil =>
        rw [step_of_nil hq]
        exact h
      | cons command queue =>
        rw [step_of_cons hf hq]
        exact hturn _ command now hf (hqueue actor queue h)
  | timer now =>
    simp only [call, fire]
    split
    · exact htick actor now h
    · exact h

theorem invariant_run {P : Actor → Prop}
    (hqueue : ∀ actor queue, P actor → P { actor with queue })
    (hturn : ∀ actor command now, actor.finished = false → P actor →
      P (actor.perform command now).actor.publish)
    (htick : ∀ actor now, P actor →
      P ({ actor with session := actor.session.tick now } : Actor).publish)
    (h : P actor) (calls : List ActorCall) : P (actor.run calls) := by
  induction calls generalizing actor with
  | nil => exact h
  | cons c calls ih => exact ih (invariant_call hqueue hturn htick h c)

structure Current (actor : Actor) : Prop where
  mounted : actor.session.Mounted
  view_eq : actor.view = .ofSession actor.session
  closed_eq : actor.session.host.closed = actor.finished
  source_eq : actor.finished = false → actor.session.source = actor.lastSource.filter (!·.isEmpty)
  token_eq : actor.session.refreshToken.isSome = actor.lastSource.isSome

theorem current_start (id : String) (options : Document.Options) (timing : Timing) :
    (start id options timing).Current :=
  ⟨Session.mounted_start id options timing, rfl, rfl, fun _ => rfl, rfl⟩

theorem current_publish (hm : actor.session.Mounted)
    (hc : actor.session.host.closed = actor.finished)
    (hs : actor.finished = false → actor.session.source = actor.lastSource.filter (!·.isEmpty))
    (ht : actor.session.refreshToken.isSome = actor.lastSource.isSome) :
    actor.publish.Current := by
  rw [publish_eq]
  exact ⟨hm.withEngine rfl, rfl, hc, hs, ht⟩

theorem Current.publish_of_frame (h : actor.Current) {session : Session PageEngine}
    (hm : session.Mounted) (hframe : session.frame = actor.session.frame) :
    ({ actor with session } : Actor).publish.Current := by
  simp only [Session.frame, Prod.mk.injEq] at hframe
  obtain ⟨-, -, -, hhost, hsource, htoken, -⟩ := hframe
  refine current_publish hm ?_ (fun hf => ?_) ?_
  · exact (congrArg Host.closed hhost).trans h.closed_eq
  · exact hsource.trans (h.source_eq hf)
  · exact (congrArg Option.isSome htoken).trans h.token_eq

theorem Current.turn (h : actor.Current) (hf : actor.finished = false) (command : Command)
    (now : Nat) : (actor.perform command now).actor.publish.Current := by
  have ho : actor.session.host.closed = false := by rw [h.closed_eq, hf]
  cases command with
  | update source token =>
    obtain ⟨hc, hs, ht⟩ := Session.update_open ho source (updateToken actor.session token) now
    exact current_publish (h.mounted.update _ _ _) (hc.trans hf.symm) (fun _ => hs) ht
  | refresh =>
    unfold perform
    cases hl : actor.lastSource with
    | none => exact current_publish h.mounted h.closed_eq h.source_eq h.token_eq
    | some source =>
      obtain ⟨hc, hs, ht⟩ := Session.update_open ho source (nextToken actor.session) now
      exact current_publish (h.mounted.update _ _ _) (hc.trans hf.symm) (fun _ => hs) ht
  | guest event =>
    exact h.publish_of_frame (h.mounted.handle event now) (actor.session.handle_frame event now)
  | close =>
    refine current_publish h.mounted.close ?_ (fun hopen => by cases hopen) ?_
    · simp [perform, Session.close, ho, Host.close]
    · have ht : actor.session.close.refreshToken = actor.session.refreshToken := by
        simp [Session.close, ho, Session.clear]
      exact (congrArg Option.isSome ht).trans h.token_eq

theorem Current.tick (h : actor.Current) (now : Nat) :
    ({ actor with session := actor.session.tick now } : Actor).publish.Current :=
  h.publish_of_frame (h.mounted.tick now) (actor.session.tick_frame now)

theorem Current.withQueue (h : actor.Current) (queue : List Command) :
    ({ actor with queue } : Actor).Current :=
  ⟨h.mounted, h.view_eq, h.closed_eq, h.source_eq, h.token_eq⟩

theorem Current.run (h : actor.Current) (calls : List ActorCall) : (actor.run calls).Current :=
  invariant_run (fun _ queue h => h.withQueue queue) (fun _ command now hf h => h.turn hf command now)
    (fun _ now h => h.tick now) h calls

theorem Current.step_refused (h : actor.Current) {event : GuestReport} {queue : List Command}
    (hq : actor.queue = .guest event :: queue)
    (hrefused : actor.session.host.accepts event.generation = false) (now : Nat) :
    ∃ queue, actor.step now = ⟨{ actor with queue }, []⟩ := by
  by_cases hf : actor.finished = true
  · exact ⟨[], step_of_finished hf now⟩
  · have hperform : ({ actor with queue } : Actor).perform (.guest event) now =
        ⟨{ actor with queue }, []⟩ := by
      simp only [perform, Session.handle_of_not_accepts hrefused]
      rfl
    refine ⟨queue, ?_⟩
    rw [step_of_cons (Bool.not_eq_true _ ▸ hf) hq, hperform, publish, ← h.view_eq, if_pos rfl]

theorem publish_settings (actor : Actor) :
    actor.publish.session.settings = actor.session.settings := by
  rw [publish_eq]
  rfl

theorem perform_settings (actor : Actor) (command : Command) (now : Nat) :
    (actor.perform command now).actor.session.settings = actor.session.settings := by
  cases command with
  | update source token => exact Session.update_settings ..
  | refresh =>
    rw [perform_refresh]
    cases actor.lastSource with
    | none => rfl
    | some source => exact Session.update_settings ..
  | guest event => exact Session.settings_of_frame (actor.session.handle_frame event now)
  | close => exact actor.session.step_settings .close

theorem run_settings (actor : Actor) (calls : List ActorCall) :
    (actor.run calls).session.settings = actor.session.settings := by
  refine invariant_run (P := fun a => a.session.settings = actor.session.settings) (fun _ _ h => h)
    (fun a command now _ h => ?_) (fun a now h => ?_) rfl calls
  · rw [publish_settings, perform_settings, h]
  · rw [publish_settings]
    exact (Session.settings_of_frame (a.session.tick_frame now)).trans h

theorem perform_lastSource (actor : Actor) (command : Command) (now : Nat) :
    (actor.perform command now).actor.lastSource = command.source?.or actor.lastSource := by
  cases command with
  | update source token => rfl
  | refresh =>
    rw [perform_refresh]
    rfl
  | guest event => rfl
  | close => rfl

theorem publish_lastSource (actor : Actor) : actor.publish.lastSource = actor.lastSource := by
  rw [publish_eq]

theorem call_lastSource (actor : Actor) (c : ActorCall) :
    (actor.call c).actor.lastSource =
      ((actor.takes c).filterMap Command.source?).getLast?.or actor.lastSource := by
  cases c with
  | enqueue command =>
    simp only [call, enqueue]
    split <;> rfl
  | turn now =>
    cases hf : actor.finished with
    | true =>
      rw [call, step_of_finished hf]
      simp [takes, hf]
    | false =>
      cases hq : actor.queue with
      | nil =>
        rw [call, step_of_nil hq]
        simp [takes, hq]
      | cons command queue =>
        rw [call, step_of_cons hf hq]
        simp only [publish_lastSource, perform_lastSource, takes, hf, hq]
        cases hs : command.source? <;> simp [hs]
  | timer now =>
    simp only [call, fire]
    split
    · exact publish_lastSource _
    · rfl

theorem run_lastSource (actor : Actor) (calls : List ActorCall) :
    (actor.run calls).lastSource =
      ((actor.taken calls).filterMap Command.source?).getLast?.or actor.lastSource := by
  induction calls generalizing actor with
  | nil => rfl
  | cons c calls ih =>
    change ((actor.call c).actor.run calls).lastSource = _
    rw [ih, call_lastSource, taken, List.filterMap_append, List.getLast?_append, Option.or_assoc]

structure Unclosed (actor : Actor) : Prop where
  running : actor.finished = false
  queued : .close ∉ actor.queue

theorem perform_running (actor : Actor) {command : Command} (h : command ≠ .close)
    (hf : actor.finished = false) (now : Nat) : (actor.perform command now).actor.finished = false := by
  cases command with
  | update source token => exact hf
  | refresh =>
    rw [perform_refresh]
    exact hf
  | guest event => exact hf
  | close => exact absurd rfl h

theorem perform_queue (actor : Actor) (command : Command) (now : Nat) :
    (actor.perform command now).actor.queue = actor.queue := by
  cases command with
  | refresh => rw [perform_refresh]
  | _ => rfl

theorem Unclosed.call (h : actor.Unclosed) {c : ActorCall} (hc : c ≠ .enqueue .close) :
    (actor.call c).actor.Unclosed := by
  cases c with
  | enqueue command =>
    have hcommand : .close ≠ command := by
      rintro rfl
      exact hc rfl
    have henqueue : actor.enqueue command =
        some { actor with queue := actor.queue ++ [command] } := by
      rw [enqueue, h.running]
      rfl
    rw [Actor.call, henqueue]
    exact ⟨h.running, by simp [h.queued, hcommand]⟩
  | turn now =>
    cases hq : actor.queue with
    | nil =>
      rw [Actor.call, step_of_nil hq]
      exact h
    | cons command queue =>
      have hqueued := h.queued
      rw [hq, List.mem_cons, not_or] at hqueued
      rw [Actor.call, step_of_cons h.running hq, publish_eq]
      refine ⟨perform_running { actor with queue } (Ne.symm hqueued.1) h.running now, ?_⟩
      change .close ∉ (perform { actor with queue } command now).actor.queue
      rw [perform_queue]
      exact hqueued.2
  | timer now =>
    simp only [Actor.call, fire]
    split
    · rw [publish_eq]
      exact ⟨h.running, h.queued⟩
    · exact h

theorem unclosed_start (id : String) (options : Document.Options) (timing : Timing) :
    (start id options timing).Unclosed :=
  ⟨rfl, List.not_mem_nil⟩

theorem Unclosed.run (h : actor.Unclosed) {calls : List ActorCall}
    (hcalls : .enqueue .close ∉ calls) : (actor.run calls).Unclosed := by
  induction calls generalizing actor with
  | nil => exact h
  | cons c calls ih =>
    rw [List.mem_cons, not_or] at hcalls
    exact ih (h.call (Ne.symm hcalls.1)) hcalls.2

end Actor

end LivePreview
