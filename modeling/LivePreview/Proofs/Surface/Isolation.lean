import LivePreview.Proofs.Surface.Closing
import LivePreview.Proofs.Surface.Served

/-!
Surfaces side by side. Requests come for any number of ids, and after each the actors run until they
wait. What is answered for an id can be told from its own actor alone.
-/

namespace LivePreview

inductive SurfaceRequest where
  | openSurface
  | send (command : Command)
  | close
  | view
  | document (generation : Generation)

inductive SurfaceReply where
  | shown (view : View)
  | found (document : Document)
  | done

inductive SurfaceEvent where
  | ask (id : String) (request : SurfaceRequest) (now : Nat)
  | timer (id : String) (now : Nat)

def SurfaceEvent.id : SurfaceEvent → String
  | .ask id _ _ => id
  | .timer id _ => id

theorem Session.handle_entry {ε : Type} (s : Session ε) (event : GuestReport) (now : Nat) :
    ∀ entry ∈ (s.handle event now).entry.toList, entry.session = s.id := by
  unfold handle
  split
  · cases event.signal with
    | bridge channel payload =>
      dsimp only
      split
      · intro entry h
        rw [List.mem_singleton.1 h]
      · exact List.forall_mem_nil _
    | loaded | loadFailed | mountFailed => exact List.forall_mem_nil _
  · exact List.forall_mem_nil _

namespace Actor

variable {actor : Actor}

theorem stepAll_eq (now count : Nat) (actor : Actor) :
    stepAll now count actor =
      ⟨actor.run (List.replicate count (.turn now)),
        actor.entries (List.replicate count (.turn now))⟩ := by
  induction count generalizing actor with
  | zero => rfl
  | succ count ih =>
    rw [stepAll, ih]
    rfl

theorem settle_eq (actor : Actor) (now : Nat) :
    actor.settle now =
      ⟨actor.run (List.replicate actor.queue.length (.turn now)),
        actor.entries (List.replicate actor.queue.length (.turn now))⟩ :=
  stepAll_eq now _ actor

theorem settle_of_nil (h : actor.queue = []) (now : Nat) : actor.settle now = ⟨actor, []⟩ := by
  rw [settle, h]
  rfl

theorem settle_queue (actor : Actor) (now : Nat) : (actor.settle now).actor.queue = [] := by
  rw [settle_eq]
  exact queue_of_turns now _ (Nat.le_refl _)

theorem run_id (actor : Actor) (calls : List ActorCall) :
    (actor.run calls).session.id = actor.session.id :=
  congrArg (·.1) (actor.run_settings calls)

theorem call_entries (actor : Actor) (c : ActorCall) :
    ∀ entry ∈ (actor.call c).entries, entry.session = actor.session.id := by
  cases c with
  | enqueue command => exact List.forall_mem_nil _
  | turn now =>
    cases hf : actor.finished with
    | true =>
      rw [call, step_of_finished hf]
      exact List.forall_mem_nil _
    | false =>
      cases hq : actor.queue with
      | nil =>
        rw [call, step_of_nil hq]
        exact List.forall_mem_nil _
      | cons command queue =>
        rw [call, step_of_cons hf hq]
        cases command with
        | guest event => exact actor.session.handle_entry event now
        | refresh =>
          rw [perform_refresh]
          exact List.forall_mem_nil _
        | update | close => exact List.forall_mem_nil _
  | timer now => exact List.forall_mem_nil _

theorem entries_session (actor : Actor) (calls : List ActorCall) :
    ∀ entry ∈ actor.entries calls, entry.session = actor.session.id := by
  induction calls generalizing actor with
  | nil => exact List.forall_mem_nil _
  | cons c calls ih =>
    intro entry h
    rcases List.mem_append.1 h with h | h
    · exact actor.call_entries c entry h
    · rw [ih _ entry h]
      exact actor.run_id [c]

theorem settle_entries (actor : Actor) (now : Nat) :
    ∀ entry ∈ (actor.settle now).entries, entry.session = actor.session.id := by
  rw [settle_eq]
  exact actor.entries_session _

end Actor

/-- What an event comes to for its id: the answer, if it was a request, the actor that the id leads to
then, and what has been logged. -/
structure Outcome where
  answer : Option (Except SurfaceError SurfaceReply)
  actor? : Option Actor
  entries : List LogRecord := []

namespace Outcome

def refused (found : Option Actor) (error : SurfaceError) : Outcome :=
  ⟨some (.error error), found, []⟩

def settled (answer : Option (Except SurfaceError SurfaceReply)) (actor : Actor) (now : Nat) :
    Outcome :=
  ⟨answer, some (actor.settle now).actor, (actor.settle now).entries⟩

end Outcome

def Actor.document (actor : Actor) (id : String) (generation : Generation) :
    Except SurfaceError Document :=
  match actor.engine.slot with
  | some (held, document) =>
      if held = generation then .ok document else .error (.unknownDocument id generation)
  | none => .error (.unknownDocument id generation)

def Actor.outcome (actor : Actor) : SurfaceEvent → Outcome
  | .timer _ now => .settled none (actor.fire now) now
  | .ask id request now =>
      match request with
      | .openSurface =>
          .refused (some actor) (if isValidId id then .alreadyOpen id else .invalidId id)
      | .send command =>
          (actor.enqueue command).elim (.refused (some actor) (.sessionClosed id))
            (Outcome.settled (some (.ok .done)) · now)
      | .close =>
          ⟨some (.ok .done), none, (((actor.enqueue .close).getD actor).settle now).entries⟩
      | .view => ⟨some (.ok (.shown actor.view)), some actor, []⟩
      | .document generation =>
          ⟨some ((actor.document id generation).map .found), some actor, []⟩

def SurfaceEvent.outcome (options : Document.Options) (timing : Timing) : SurfaceEvent → Outcome
  | .timer _ _ => ⟨none, none, []⟩
  | .ask id request _ =>
      match request with
      | .openSurface =>
          if isValidId id then
            ⟨some (.ok (.shown (Actor.start id options timing).view)),
              some (.start id options timing), []⟩
          else .refused none (.invalidId id)
      | _ => .refused none (.unknownSession id)

namespace Registry

variable {registry : Registry}

def ask (registry : Registry) (id : String) :
    SurfaceRequest → Except SurfaceError (SurfaceReply × Registry)
  | .openSurface => (registry.openSurface id).map fun opened => (.shown opened.1, opened.2)
  | .send command => (registry.send id command).map fun next => (.done, next)
  | .close => (registry.close id).map fun next => (.done, next)
  | .view => (registry.view id).map fun view => (.shown view, registry)
  | .document generation =>
      (registry.document id generation).map fun document => (.found document, registry)

def answer? (registry : Registry) : SurfaceEvent → Option (Except SurfaceError SurfaceReply)
  | .ask id request _ => some ((registry.ask id request).map (·.1))
  | .timer _ _ => none

def meet (registry : Registry) : SurfaceEvent → Registry
  | .ask id request now => ((registry.ask id request).toOption.elim registry (·.2)).settle now
  | .timer id now =>
      ((registry.handle? id).elim registry (registry.actorCall · (.timer now))).settle now

def meetAll (registry : Registry) (events : List SurfaceEvent) : Registry :=
  events.foldl meet registry

def answers : Registry → List SurfaceEvent → List (String × Except SurfaceError SurfaceReply)
  | _, [] => []
  | registry, event :: events =>
      (registry.answer? event).toList.map (event.id, ·) ++ answers (registry.meet event) events

def refuses (registry : Registry) (event : SurfaceEvent) : Bool :=
  (registry.answer? event).any fun answer => !answer.isOk

/-- The events of one id, but for the requests that are refused. -/
def eventsOf (id : String) : Registry → List SurfaceEvent → List SurfaceEvent
  | _, [] => []
  | registry, event :: events =>
      let rest := eventsOf id (registry.meet event) events
      if event.id = id ∧ registry.refuses event = false then event :: rest else rest

/-- Nothing waits in a queue, and every id leads to the actor of its name. -/
structure Orderly (registry : Registry) : Prop where
  queue_eq : ∀ actor ∈ registry.actors, actor.queue = []
  named : ∀ handle ∈ registry.handles,
    ∃ actor, registry.actors[handle.2]? = some actor ∧ actor.session.id = handle.1

theorem Orderly.found (h : registry.Orderly) {id : String} {index : Nat}
    (hid : registry.handle? id = some index) :
    ∃ actor, registry.actors[index]? = some actor ∧ actor.session.id = id ∧ actor.queue = [] := by
  obtain ⟨handle, hfind, rfl⟩ := Option.map_eq_some_iff.1 hid
  obtain ⟨actor, hget, hname⟩ := h.named handle (List.mem_of_find?_eq_some hfind)
  have hkey : handle.1 = id := by simpa using List.find?_some hfind
  exact ⟨actor, hget, hname.trans hkey, h.queue_eq actor (List.mem_of_getElem? hget)⟩

theorem Orderly.name_eq (h : registry.Orderly) {id : String} {index : Nat} {actor : Actor}
    (hid : registry.handle? id = some index) (hget : registry.actors[index]? = some actor) :
    actor.session.id = id := by
  obtain ⟨found, hfound, hname, -⟩ := h.found hid
  cases hget.symm.trans hfound
  exact hname

theorem Orderly.handle?_ne (h : registry.Orderly) {id other : String} {index : Nat}
    (hid : registry.handle? id = some index) (hne : other ≠ id) :
    registry.handle? other ≠ some index := by
  intro hother
  obtain ⟨actor, hget, hname, -⟩ := h.found hid
  exact hne ((h.name_eq hother hget).symm.trans hname)

theorem flatMap_set {α β : Type} {xs : List α} {f : α → List β} (h : ∀ x ∈ xs, f x = []) (x : α)
    {index : Nat} (hlt : index < xs.length) : (xs.set index x).flatMap f = f x := by
  have htake : (xs.take index).flatMap f = [] :=
    List.flatMap_eq_nil_iff.2 fun y hy => h y (List.mem_of_mem_take hy)
  have hdrop : (xs.drop (index + 1)).flatMap f = [] :=
    List.flatMap_eq_nil_iff.2 fun y hy => h y (List.mem_of_mem_drop hy)
  rw [List.set_eq_take_append_cons_drop, if_pos hlt, List.flatMap_append, List.flatMap_cons, htake,
    hdrop, List.nil_append, List.append_nil]

theorem map_settle (h : ∀ actor ∈ registry.actors, actor.queue = []) (now : Nat) :
    (registry.actors.map fun actor => (actor.settle now).actor) = registry.actors := by
  refine (List.map_congr_left fun actor hmem => ?_).trans (List.map_id _)
  rw [Actor.settle_of_nil (h actor hmem)]
  rfl

theorem settle_of_idle (h : ∀ actor ∈ registry.actors, actor.queue = []) (now : Nat) :
    registry.settle now = registry := by
  have hentries : (registry.actors.flatMap fun actor => (actor.settle now).entries) = [] := by
    refine List.flatMap_eq_nil_iff.2 fun actor hmem => ?_
    rw [Actor.settle_of_nil (h actor hmem)]
  rw [settle_eq, map_settle h, hentries, List.append_nil]

theorem settle_setActor (h : ∀ actor ∈ registry.actors, actor.queue = []) {index : Nat}
    (hlt : index < registry.actors.length) (actor : Actor) (now : Nat) :
    (registry.setActor index actor).settle now =
      { registry.setActor index (actor.settle now).actor with
        log := registry.log ++ (actor.settle now).entries } := by
  have hnone : ∀ actor ∈ registry.actors, (actor.settle now).entries = [] := by
    intro actor hmem
    rw [Actor.settle_of_nil (h actor hmem)]
  have hentries : ((registry.setActor index actor).actors.flatMap fun actor =>
      (actor.settle now).entries) = (actor.settle now).entries :=
    flatMap_set hnone actor hlt
  rw [settle_eq, hentries]
  simp only [setActor, List.map_set, map_settle h]

theorem Orderly.handle?_eq_none (h : registry.Orderly) {id : String}
    (hnone : registry.actor? id = none) : registry.handle? id = none := by
  cases hid : registry.handle? id with
  | none => rfl
  | some index =>
    obtain ⟨actor, hget, -, -⟩ := h.found hid
    simp [actor?, hid, hget] at hnone

theorem Orderly.setActor (h : registry.Orderly) {index : Nat} {actor other : Actor}
    (hget : registry.actors[index]? = some actor) (hqueue : other.queue = [])
    (hname : other.session.id = actor.session.id) : (registry.setActor index other).Orderly := by
  constructor
  · intro found hmem
    rcases List.mem_or_eq_of_mem_set hmem with hmem | rfl
    · exact h.queue_eq found hmem
    · exact hqueue
  · intro handle hmem
    obtain ⟨found, hfound, hid⟩ := h.named handle hmem
    by_cases hindex : index = handle.2
    · subst hindex
      cases hget.symm.trans hfound
      exact ⟨other, List.getElem?_set_self (List.getElem?_eq_some_iff.1 hget).1, hname.trans hid⟩
    · exact ⟨found, (List.getElem?_set_ne hindex).trans hfound, hid⟩

/-- An event of `id` has left the others as they were, and the log with `entries` of `id` more. -/
structure Goes (id : String) (registry next : Registry) (found : Option Actor)
    (entries : List LogRecord) : Prop where
  orderly : next.Orderly
  options_eq : next.options = registry.options
  timing_eq : next.timing = registry.timing
  actor?_eq : next.actor? id = found
  others : ∀ other, other ≠ id → next.actor? other = registry.actor? other
  log_eq : next.log = registry.log ++ entries
  entries_eq : ∀ entry ∈ entries, entry.session = id

theorem Orderly.goes_self (h : registry.Orderly) (id : String) :
    Goes id registry registry (registry.actor? id) [] :=
  ⟨h, rfl, rfl, rfl, fun _ _ => rfl, (List.append_nil _).symm, List.forall_mem_nil _⟩

theorem Orderly.replace (h : registry.Orderly) {index : Nat} {actor other : Actor}
    (hget : registry.actors[index]? = some actor) (hname : other.session.id = actor.session.id)
    (now : Nat) :
    let next := (registry.setActor index other).settle now
    next.Orderly ∧ next.log = registry.log ++ (other.settle now).entries ∧
      (∀ id, registry.handle? id = some index →
        next.actor? id = some (other.settle now).actor) ∧
      ∀ id, registry.handle? id ≠ some index → next.actor? id = registry.actor? id := by
  intro next
  obtain ⟨hlt, -⟩ := List.getElem?_eq_some_iff.1 hget
  have hsettled : (other.settle now).actor.session.id = actor.session.id := by
    rw [Actor.settle_eq, other.run_id, hname]
  have hnext : next = { registry.setActor index (other.settle now).actor with
      log := registry.log ++ (other.settle now).entries } :=
    settle_setActor h.queue_eq hlt other now
  obtain ⟨hqueue, hnamed⟩ := h.setActor hget (other.settle_queue now) hsettled
  rw [hnext]
  refine ⟨⟨hqueue, hnamed⟩, rfl, fun id hid => ?_, fun id hid => actor?_setActor_ne hid _⟩
  change (registry.handle? id).bind _ = _
  rw [hid]
  exact List.getElem?_set_self hlt

theorem Orderly.goes_setActor (h : registry.Orderly) {id : String} {index : Nat}
    {actor other : Actor}
    (hid : registry.handle? id = some index) (hget : registry.actors[index]? = some actor)
    (hname : other.session.id = actor.session.id) (now : Nat) :
    Goes id registry ((registry.setActor index other).settle now)
      (some (other.settle now).actor) (other.settle now).entries := by
  obtain ⟨horderly, hlog, hown, hothers⟩ := h.replace hget hname now
  have hnamed : other.session.id = id := hname.trans (h.name_eq hid hget)
  exact ⟨horderly, rfl, rfl, hown id hid, fun other hne => hothers other (h.handle?_ne hid hne),
    hlog, fun entry hmem => (other.settle_entries now entry hmem).trans hnamed⟩

theorem handle?_of_concat {next : Registry} {id : String} {index : Nat}
    (h : next.handles = registry.handles ++ [(id, index)]) (other : String) :
    next.handle? other = (registry.handle? other).or (if id = other then some index else none) := by
  rw [handle?, h, List.find?_append, Option.map_or]
  by_cases hid : id = other <;> simp [handle?, hid]

theorem handle?_of_filter {next : Registry} {id : String}
    (h : next.handles = registry.handles.filter (·.1 != id)) (other : String) :
    next.handle? other = if other = id then none else registry.handle? other := by
  rw [handle?, h, List.find?_filter]
  split
  · rename_i hid
    simp [hid]
  · rename_i hid
    have hsame : ∀ handle : String × Nat,
        decide ((handle.1 != id) = true ∧ (handle.1 == other) = true) = (handle.1 == other) := by
      intro handle
      by_cases hkey : handle.1 = other <;> simp [hkey, hid]
    simp only [hsame, handle?]

theorem Orderly.goes_open (h : registry.Orderly) {id : String} (hnone : registry.actor? id = none)
    (now : Nat) :
    let actor := Actor.start id registry.options registry.timing
    Goes id registry
      ({ registry with
        actors := registry.actors ++ [actor]
        handles := registry.handles ++ [(id, registry.actors.length)] }.settle now)
      (some actor) [] := by
  intro actor
  have hid := h.handle?_eq_none hnone
  have horderly : Orderly { registry with
      actors := registry.actors ++ [actor]
      handles := registry.handles ++ [(id, registry.actors.length)] } := by
    constructor
    · intro found hmem
      rcases List.mem_append.1 hmem with hmem | hmem
      · exact h.queue_eq found hmem
      · rw [List.mem_singleton.1 hmem]
        rfl
    · intro handle hmem
      rcases List.mem_append.1 hmem with hmem | hmem
      · obtain ⟨found, hfound, hname⟩ := h.named handle hmem
        obtain ⟨hlt, -⟩ := List.getElem?_eq_some_iff.1 hfound
        exact ⟨found, (List.getElem?_append_left hlt).trans hfound, hname⟩
      · rw [List.mem_singleton.1 hmem]
        exact ⟨actor, by simp, rfl⟩
  rw [settle_of_idle horderly.queue_eq]
  refine ⟨horderly, rfl, rfl, ?_, ?_, (List.append_nil _).symm, List.forall_mem_nil _⟩
  · rw [actor?, handle?_of_concat rfl, hid, if_pos rfl]
    exact List.getElem?_concat_length
  · intro other hne
    rw [actor?, handle?_of_concat rfl, if_neg (Ne.symm hne), Option.or_none, actor?]
    cases hother : registry.handle? other with
    | none => rfl
    | some index =>
      obtain ⟨found, hfound, -⟩ := h.found hother
      exact List.getElem?_append_left (List.getElem?_eq_some_iff.1 hfound).1

theorem Orderly.goes_close (h : registry.Orderly) {id : String} {index : Nat}
    {actor other : Actor}
    (hid : registry.handle? id = some index) (hget : registry.actors[index]? = some actor)
    (hname : other.session.id = actor.session.id) (now : Nat) :
    let forgotten : Registry :=
      { registry with handles := registry.handles.filter (·.1 != id) }
    Goes id registry ((forgotten.setActor index other).settle now) none
      (other.settle now).entries := by
  intro forgotten
  have hforgotten : forgotten.Orderly :=
    ⟨h.queue_eq, fun handle hmem => h.named handle (List.mem_filter.1 hmem).1⟩
  have hnone : forgotten.handle? id = none := by
    rw [handle?_of_filter rfl, if_pos rfl]
  have hkept : ∀ other, other ≠ id → forgotten.handle? other = registry.handle? other := by
    intro other hne
    rw [handle?_of_filter rfl, if_neg hne]
  obtain ⟨horderly, hlog, -, hothers⟩ := hforgotten.replace hget hname now
  have hnamed : other.session.id = id := hname.trans (h.name_eq hid hget)
  refine ⟨horderly, rfl, rfl, ?_, fun other hne => ?_, hlog,
    fun entry hmem => (other.settle_entries now entry hmem).trans hnamed⟩
  · rw [hothers id (by simp [hnone]), actor?, hnone]
    rfl
  · have hindex : forgotten.handle? other ≠ some index := by
      rw [hkept other hne]
      exact h.handle?_ne hid hne
    rw [hothers other hindex, actor?, hkept other hne]
    rfl

structure Comes (registry : Registry) (event : SurfaceEvent) (outcome : Outcome) : Prop where
  answer_eq : registry.answer? event = outcome.answer
  goes : Goes event.id registry (registry.meet event) outcome.actor? outcome.entries

theorem Orderly.meet_of_error (h : registry.Orderly) {id : String} {request : SurfaceRequest}
    {error : SurfaceError} (hask : registry.ask id request = .error error) (now : Nat) :
    registry.meet (.ask id request now) = registry := by
  rw [meet, hask]
  exact settle_of_idle h.queue_eq now

section Still

variable (h : registry.Orderly) {id : String} {found : Option Actor}
  (hfound : registry.actor? id = found) {request : SurfaceRequest}

include h hfound

theorem Orderly.comes_of_error {error : SurfaceError}
    (hask : registry.ask id request = .error error) (now : Nat) :
    registry.Comes (.ask id request now) (.refused found error) := by
  constructor
  · rw [answer?, hask]
    rfl
  · rw [h.meet_of_error hask now, ← hfound]
    exact h.goes_self id

theorem Orderly.comes_of_look {reply : SurfaceReply}
    (hask : registry.ask id request = .ok (reply, registry)) (now : Nat) :
    registry.Comes (.ask id request now) ⟨some (.ok reply), found, []⟩ := by
  constructor
  · rw [answer?, hask]
    rfl
  · have hmeet : registry.meet (.ask id request now) = registry := by
      rw [meet, hask]
      exact settle_of_idle h.queue_eq now
    rw [hmeet, ← hfound]
    exact h.goes_self id

end Still

theorem ask_of_unknown {id : String} (hid : registry.handle? id = none) {request : SurfaceRequest}
    (hopen : request ≠ .openSurface) :
    registry.ask id request = .error (.unknownSession id) := by
  have hfind := find_of_unknown hid
  cases request with
  | openSurface => exact absurd rfl hopen
  | send command => simp [ask, send, hid, Except.map]
  | close => simp [ask, close, hid, Except.map]
  | view => simp [ask, view, hfind, Except.map]
  | document generation => simp [ask, document_of_find_error hfind, Except.map]

theorem Orderly.comes_unknown (h : registry.Orderly) {event : SurfaceEvent}
    (hnone : registry.actor? event.id = none) :
    registry.Comes event (event.outcome registry.options registry.timing) := by
  have hid := h.handle?_eq_none hnone
  cases event with
  | timer id now =>
    simp only [SurfaceEvent.id] at hid hnone
    have hmeet : registry.meet (.timer id now) = registry := by
      rw [meet, hid]
      exact settle_of_idle h.queue_eq now
    have hself := h.goes_self id
    rw [hnone] at hself
    refine ⟨rfl, ?_⟩
    rw [hmeet]
    exact hself
  | ask id request now =>
    simp only [SurfaceEvent.id] at hid hnone
    by_cases hopen : request = .openSurface
    · subst hopen
      cases hvalid : isValidId id with
      | false =>
        have hask : registry.ask id .openSurface = .error (.invalidId id) := by
          simp [ask, openSurface, hvalid, Except.map]
        simpa [SurfaceEvent.outcome, hvalid] using h.comes_of_error hnone hask now
      | true =>
        have hgoes := h.goes_open hnone now
        simp only [SurfaceEvent.outcome, hvalid, if_true]
        constructor
        · simp [answer?, ask, openSurface, hvalid, hid, Except.map]
        · have hask : registry.ask id .openSurface = .ok
              (.shown (Actor.start id registry.options registry.timing).view, { registry with
                actors := registry.actors ++ [.start id registry.options registry.timing]
                handles := registry.handles ++ [(id, registry.actors.length)] }) := by
            simp [ask, openSurface, hvalid, hid, Except.map]
          rw [meet, hask]
          exact hgoes
    · have hcomes := h.comes_of_error hnone (ask_of_unknown hid hopen) now
      cases request with
      | openSurface => exact absurd rfl hopen
      | send | close | view | document => exact hcomes

theorem enqueue_eq {index : Nat} {actor : Actor} (hget : registry.actors[index]? = some actor)
    (command : Command) :
    registry.enqueue index command = (actor.enqueue command).map (registry.setActor index) := by
  cases hqueue : actor.enqueue command <;> simp [enqueue, hget, hqueue]

theorem enqueue_id {actor queued : Actor} {command : Command}
    (h : actor.enqueue command = some queued) : queued.session.id = actor.session.id := by
  unfold Actor.enqueue at h
  split at h <;> cases h
  rfl

theorem actorCall_enqueue {index : Nat} {actor : Actor}
    (hget : registry.actors[index]? = some actor) (command : Command) :
    registry.actorCall index (.enqueue command) =
      registry.setActor index ((actor.enqueue command).getD actor) := by
  rw [actorCall_of_some hget, Actor.call]
  simp [setActor]

section Known

variable {id : String} {index : Nat} {actor : Actor} (h : registry.Orderly)
  (hid : registry.handle? id = some index) (hget : registry.actors[index]? = some actor)

include h hid hget

theorem Orderly.comes_timer (now : Nat) :
    registry.Comes (.timer id now) (actor.outcome (.timer id now)) := by
  have hmeet : registry.meet (.timer id now) =
      (registry.setActor index (actor.fire now)).settle now := by
    simp only [meet, hid, Option.elim_some, actorCall_of_some hget, Actor.call, List.append_nil]
    rfl
  refine ⟨rfl, ?_⟩
  rw [hmeet]
  exact h.goes_setActor hid hget (actor.run_id [.timer now]) now

theorem Orderly.comes_send (command : Command) (now : Nat) :
    registry.Comes (.ask id (.send command) now) (actor.outcome (.ask id (.send command) now)) := by
  cases hqueue : actor.enqueue command with
  | none =>
    have hask : registry.ask id (.send command) = .error (.sessionClosed id) := by
      simp [ask, send, hid, enqueue_eq hget, hqueue, Except.map]
    simpa [Actor.outcome, hqueue] using h.comes_of_error (actor?_eq_some hid hget) hask now
  | some queued =>
    have hask : registry.ask id (.send command) = .ok (.done, registry.setActor index queued) := by
      simp [ask, send, hid, enqueue_eq hget, hqueue, Except.map]
    simp only [Actor.outcome, hqueue, Option.elim_some]
    constructor
    · rw [answer?, hask]
      rfl
    · rw [meet, hask]
      exact h.goes_setActor hid hget (enqueue_id hqueue) now

theorem Orderly.comes_close (now : Nat) :
    registry.Comes (.ask id .close now) (actor.outcome (.ask id .close now)) := by
  have hqueued : ((actor.enqueue .close).getD actor).session.id = actor.session.id := by
    cases hqueue : actor.enqueue .close with
    | none => rfl
    | some queued => exact enqueue_id hqueue
  let forgotten : Registry := { registry with handles := registry.handles.filter (·.1 != id) }
  have hqueue : (forgotten.enqueue index .close).getD forgotten =
      forgotten.setActor index ((actor.enqueue .close).getD actor) :=
    (enqueue_getD forgotten index .close).trans (@actorCall_enqueue forgotten index actor hget _)
  have hask : registry.ask id .close =
      .ok (.done, forgotten.setActor index ((actor.enqueue .close).getD actor)) := by
    rw [ask, close, hid, ← hqueue]
    rfl
  constructor
  · rw [answer?, hask]
    rfl
  · rw [meet, hask]
    exact h.goes_close hid hget hqueued now

theorem Orderly.comes_view (now : Nat) :
    registry.Comes (.ask id .view now) (actor.outcome (.ask id .view now)) := by
  have hask : registry.ask id .view = .ok (.shown actor.view, registry) := by
    simp [ask, view, find_eq_ok hid hget, Except.map]
  exact h.comes_of_look (actor?_eq_some hid hget) hask now

theorem Orderly.comes_document (generation : Generation) (now : Nat) :
    registry.Comes (.ask id (.document generation) now)
      (actor.outcome (.ask id (.document generation) now)) := by
  have hactor := actor?_eq_some hid hget
  have hdocument : registry.document id generation = actor.document id generation :=
    document_eq (find_eq_ok hid hget) generation
  cases hfound : actor.document id generation with
  | error error =>
    have hask : registry.ask id (.document generation) = .error error := by
      rw [ask, hdocument, hfound]
      rfl
    simp only [Actor.outcome, hfound]
    exact h.comes_of_error hactor hask now
  | ok document =>
    have hask : registry.ask id (.document generation) = .ok (.found document, registry) := by
      rw [ask, hdocument, hfound]
      rfl
    simp only [Actor.outcome, hfound]
    exact h.comes_of_look hactor hask now

theorem Orderly.comes_ask (request : SurfaceRequest) (now : Nat) :
    registry.Comes (.ask id request now) (actor.outcome (.ask id request now)) := by
  cases request with
  | openSurface =>
    have hask : registry.ask id .openSurface =
        .error (if isValidId id then .alreadyOpen id else .invalidId id) := by
      cases hvalid : isValidId id <;> simp [ask, openSurface, hvalid, hid, Except.map]
    exact h.comes_of_error (actor?_eq_some hid hget) hask now
  | send command => exact h.comes_send hid hget command now
  | close => exact h.comes_close hid hget now
  | view => exact h.comes_view hid hget now
  | document generation => exact h.comes_document hid hget generation now

end Known

def outcome (registry : Registry) (event : SurfaceEvent) : Outcome :=
  (registry.actor? event.id).elim (event.outcome registry.options registry.timing)
    (·.outcome event)

theorem Orderly.comes (h : registry.Orderly) (event : SurfaceEvent) :
    registry.Comes event (registry.outcome event) := by
  rw [outcome]
  cases hfound : registry.actor? event.id with
  | none => exact h.comes_unknown hfound
  | some actor =>
    obtain ⟨index, hid, hget⟩ := Option.bind_eq_some_iff.1 hfound
    cases event with
    | timer id now => exact h.comes_timer hid hget now
    | ask id request now => exact h.comes_ask hid hget request now

theorem Orderly.meet_of_refuses (h : registry.Orderly) {event : SurfaceEvent}
    (hrefuses : registry.refuses event = true) : registry.meet event = registry := by
  cases event with
  | timer id now => cases hrefuses
  | ask id request now =>
    cases hask : registry.ask id request with
    | error error => exact h.meet_of_error hask now
    | ok asked => simp [refuses, answer?, hask, Except.map, Except.isOk, Except.toBool] at hrefuses

/-- The second registry is what is left of the first for one id. -/
structure Reduces (id : String) (whole part : Registry) : Prop where
  whole_orderly : whole.Orderly
  part_orderly : part.Orderly
  options_eq : part.options = whole.options
  timing_eq : part.timing = whole.timing
  actor?_eq : part.actor? id = whole.actor? id
  log_eq : part.log = whole.log.filter (·.session == id)

variable {id : String} {whole part : Registry} {event : SurfaceEvent}

theorem Reduces.outcome_eq (h : Reduces id whole part) (hid : event.id = id) :
    part.outcome event = whole.outcome event := by
  rw [outcome, outcome, hid, h.actor?_eq, h.options_eq, h.timing_eq]

theorem Reduces.meet_both (h : Reduces id whole part) (hid : event.id = id) :
    Reduces id (whole.meet event) (part.meet event) := by
  have hwhole := (h.whole_orderly.comes event).goes
  have hpart := (h.part_orderly.comes event).goes
  rw [h.outcome_eq hid] at hpart
  rw [hid] at hwhole hpart
  have hown : (whole.outcome event).entries.filter (·.session == id) =
      (whole.outcome event).entries :=
    List.filter_eq_self.2 fun entry hmem => by simp [hwhole.entries_eq entry hmem]
  refine ⟨hwhole.orderly, hpart.orderly, ?_, ?_, ?_, ?_⟩
  · rw [hpart.options_eq, hwhole.options_eq, h.options_eq]
  · rw [hpart.timing_eq, hwhole.timing_eq, h.timing_eq]
  · rw [hpart.actor?_eq, hwhole.actor?_eq]
  · rw [hpart.log_eq, hwhole.log_eq, List.filter_append, hown, h.log_eq]

theorem Reduces.meet_other (h : Reduces id whole part) (hid : event.id ≠ id) :
    Reduces id (whole.meet event) part := by
  have hwhole := (h.whole_orderly.comes event).goes
  have hother : (whole.outcome event).entries.filter (·.session == id) = [] :=
    List.filter_eq_nil_iff.2 fun entry hmem => by simp [hwhole.entries_eq entry hmem, hid]
  refine ⟨hwhole.orderly, h.part_orderly, ?_, ?_, ?_, ?_⟩
  · rw [hwhole.options_eq, h.options_eq]
  · rw [hwhole.timing_eq, h.timing_eq]
  · rw [hwhole.others id (Ne.symm hid), h.actor?_eq]
  · rw [hwhole.log_eq, List.filter_append, hother, List.append_nil, h.log_eq]

theorem filter_answer (registry : Registry) (event : SurfaceEvent) (id : String) :
    ((registry.answer? event).toList.map (event.id, ·)).filter
        (fun answer => answer.1 == id && answer.2.isOk) =
      if event.id = id ∧ registry.refuses event = false then
        (registry.answer? event).toList.map (event.id, ·)
      else [] := by
  rw [refuses]
  cases registry.answer? event with
  | none => simp
  | some answer =>
    by_cases hid : event.id = id <;> cases hok : answer.isOk <;> simp [hid, hok]

theorem Reduces.run (h : Reduces id whole part) (events : List SurfaceEvent) :
    Reduces id (whole.meetAll events) (part.meetAll (eventsOf id whole events)) ∧
      part.answers (eventsOf id whole events) =
        (whole.answers events).filter fun answer => answer.1 == id && answer.2.isOk := by
  induction events generalizing whole part with
  | nil => exact ⟨h, rfl⟩
  | cons event events ih =>
    rw [answers, List.filter_append, filter_answer, eventsOf]
    by_cases hid : event.id = id
    · cases hrefuses : whole.refuses event with
      | true =>
        have hmeet := h.whole_orderly.meet_of_refuses hrefuses
        change Reduces id ((whole.meet event).meetAll events) _ ∧ _
        simp only [hid, hmeet, Bool.true_eq_false, and_false, if_false, List.nil_append]
        exact ih h
      | false =>
        have hanswer : part.answer? event = whole.answer? event := by
          rw [(h.part_orderly.comes event).answer_eq, (h.whole_orderly.comes event).answer_eq,
            h.outcome_eq hid]
        obtain ⟨hrun, hanswers⟩ := ih (h.meet_both hid)
        simp only [hid, and_self, if_true]
        refine ⟨hrun, ?_⟩
        rw [answers, hanswer, hanswers, hid]
    · change Reduces id ((whole.meet event).meetAll events) _ ∧ _
      simp only [hid, false_and, if_false, List.nil_append]
      exact ih (h.meet_other hid)

/-- What an id is answered, what it shows and what it logs in a run: the same as in the run of its own
events, without the requests that were refused. -/
theorem unaffected_by_others (options : Document.Options) (timing : Timing)
    (events : List SurfaceEvent) (id : String) :
    let registry : Registry := { options, timing }
    let whole := registry.meetAll events
    let part := registry.meetAll (eventsOf id registry events)
    (registry.answers (eventsOf id registry events) =
      (registry.answers events).filter fun answer => answer.1 == id && answer.2.isOk) ∧
    part.view id = whole.view id ∧
    (∀ generation, part.document id generation = whole.document id generation) ∧
    part.log = whole.log.filter (·.session == id) := by
  intro registry whole part
  have horderly : registry.Orderly :=
    ⟨List.forall_mem_nil _, List.forall_mem_nil _⟩
  have hreduces : Reduces id registry registry := ⟨horderly, horderly, rfl, rfl, rfl, rfl⟩
  obtain ⟨hrun, hanswers⟩ := hreduces.run events
  have hfind : part.find id = whole.find id := by
    rw [find, find, hrun.actor?_eq]
  refine ⟨hanswers, ?_, fun generation => ?_, hrun.log_eq⟩
  · rw [view, view, hfind]
  · rw [document, document, hfind]

end Registry

end LivePreview
