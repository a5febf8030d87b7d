import LivePreview.Surface.Registry
import LivePreview.Proofs.Surface.Turn

/-!
Runs of a registry. Each opening starts an actor that counts generations from the beginning, so a
signal sent to an id is taken for one of the live document whenever the numbers agree.
-/

namespace LivePreview

inductive SurfaceCall where
  | openSurface (id : String)
  | send (id : String) (command : Command)
  | close (id : String)
  | turn (index now : Nat)
  | timer (index now : Nat)

namespace Registry

def actorCall (registry : Registry) (index : Nat) (c : ActorCall) : Registry :=
  match registry.actors[index]? with
  | some actor =>
      let acted := actor.call c
      { registry.setActor index acted.actor with log := registry.log ++ acted.entries }
  | none => registry

def call (registry : Registry) : SurfaceCall → Registry
  | .openSurface id => (registry.openSurface id).toOption.elim registry (·.2)
  | .send id command => (registry.send id command).toOption.getD registry
  | .close id => (registry.close id).toOption.getD registry
  | .turn index now => registry.actorCall index (.turn now)
  | .timer index now => registry.actorCall index (.timer now)

def run (registry : Registry) (calls : List SurfaceCall) : Registry :=
  calls.foldl call registry

variable {registry : Registry}

theorem actorCall_of_some {index : Nat} {actor : Actor} (h : registry.actors[index]? = some actor)
    (c : ActorCall) :
    registry.actorCall index c = { registry.setActor index (actor.call c).actor with
      log := registry.log ++ (actor.call c).entries } := by
  simp [actorCall, h]

theorem run_append (registry : Registry) (before after : List SurfaceCall) :
    registry.run (before ++ after) = (registry.run before).run after := by
  simp [run, List.foldl_append]

theorem run_turns {index : Nat} {actor : Actor} (hget : registry.actors[index]? = some actor)
    (now count : Nat) :
    registry.run (List.replicate count (.turn index now)) =
      { registry.setActor index (Actor.stepAll now count actor).actor with
        log := registry.log ++ (Actor.stepAll now count actor).entries } := by
  induction count generalizing registry actor with
  | zero =>
    obtain ⟨hlt, rfl⟩ := List.getElem?_eq_some_iff.1 hget
    simp [run, Actor.stepAll, setActor]
  | succ count ih =>
    have hlt : index < registry.actors.length := (List.getElem?_eq_some_iff.1 hget).1
    have hcall : registry.call (.turn index now) =
        { registry.setActor index (actor.step now).actor with
          log := registry.log ++ (actor.step now).entries } := actorCall_of_some hget _
    have hnext : (registry.call (.turn index now)).actors[index]? = some (actor.step now).actor := by
      rw [hcall]
      exact List.getElem?_set_self hlt
    rw [List.replicate_succ]
    change (registry.call (.turn index now)).run _ = _
    rw [ih hnext, hcall]
    simp [setActor, Actor.stepAll]

theorem run_settles (registry : Registry) (settled unsettled : List Actor) (now : Nat)
    (hactors : registry.actors = settled ++ unsettled) :
    ∃ calls, registry.run calls = { registry with
      actors := settled ++ unsettled.map fun actor => (actor.settle now).actor
      log := registry.log ++ unsettled.flatMap fun actor => (actor.settle now).entries } := by
  induction unsettled generalizing settled registry with
  | nil =>
    refine ⟨[], ?_⟩
    simp [run, ← hactors]
  | cons actor unsettled ih =>
    have hget : registry.actors[settled.length]? = some actor := by simp [hactors]
    have hturns := run_turns hget now actor.queue.length
    obtain ⟨calls, hcalls⟩ := ih
      (registry.run (List.replicate actor.queue.length (.turn settled.length now)))
      (settled ++ [(actor.settle now).actor]) (by rw [hturns]; simp [setActor, hactors, Actor.settle])
    refine ⟨List.replicate actor.queue.length (.turn settled.length now) ++ calls, ?_⟩
    rw [run_append, hcalls, hturns]
    simp [setActor, Actor.settle]

theorem settle_eq (registry : Registry) (now : Nat) :
    registry.settle now = { registry with
      actors := registry.actors.map fun actor => (actor.settle now).actor
      log := registry.log ++ registry.actors.flatMap fun actor => (actor.settle now).entries } := by
  rw [settle, List.map_map, List.flatMap_map]
  rfl

theorem settle_eq_run (registry : Registry) (now : Nat) :
    ∃ calls, registry.run calls = registry.settle now := by
  obtain ⟨calls, hcalls⟩ := registry.run_settles [] registry.actors now rfl
  refine ⟨calls, ?_⟩
  rw [hcalls, settle_eq]
  rfl

theorem enqueue_getD (registry : Registry) (index : Nat) (command : Command) :
    (registry.enqueue index command).getD registry =
      registry.actorCall index (.enqueue command) := by
  cases hget : registry.actors[index]? with
  | none => simp [enqueue, actorCall, hget]
  | some actor =>
    cases hqueue : actor.enqueue command with
    | some queued => simp [enqueue, actorCall, Actor.call, hget, hqueue, setActor]
    | none =>
      obtain ⟨hlt, rfl⟩ := List.getElem?_eq_some_iff.1 hget
      simp [enqueue, actorCall, Actor.call, hget, hqueue, setActor]

theorem call_send (registry : Registry) (id : String) (command : Command) :
    registry.call (.send id command) =
      (registry.handle? id).elim registry (registry.actorCall · (.enqueue command)) := by
  cases hid : registry.handle? id with
  | none => simp [call, send, hid, Except.toOption]
  | some index =>
    rw [Option.elim_some, ← enqueue_getD]
    cases henqueue : registry.enqueue index command <;>
      simp [call, send, hid, henqueue, Except.toOption]

theorem call_close (registry : Registry) (id : String) :
    registry.call (.close id) = (registry.handle? id).elim registry
      ({ registry with handles := registry.handles.filter (·.1 != id) }.actorCall ·
        (.enqueue .close)) := by
  cases hid : registry.handle? id with
  | none => simp [call, close, hid, Except.toOption]
  | some index =>
    rw [Option.elim_some, ← enqueue_getD]
    simp [call, close, hid, Except.toOption]

variable {options : Document.Options} {timing : Timing}

/-- Every actor has been started by the registry and has done nothing but its own calls. -/
structure Grown (options : Document.Options) (timing : Timing) (registry : Registry) : Prop where
  options_eq : registry.options = options
  timing_eq : registry.timing = timing
  actors_run : ∀ actor ∈ registry.actors, ∃ id calls, actor = (Actor.start id options timing).run calls

theorem Grown.actorCall (h : Grown options timing registry) (index : Nat) (c : ActorCall) :
    Grown options timing (registry.actorCall index c) := by
  cases hget : registry.actors[index]? with
  | none =>
    rw [Registry.actorCall, hget]
    exact h
  | some actor =>
    rw [actorCall_of_some hget]
    refine ⟨h.options_eq, h.timing_eq, ?_⟩
    intro other hother
    rcases List.mem_or_eq_of_mem_set hother with hmem | rfl
    · exact h.actors_run other hmem
    · obtain ⟨id, calls, rfl⟩ := h.actors_run actor (List.mem_of_getElem? hget)
      exact ⟨id, calls ++ [c], by simp [Actor.run]⟩

theorem Grown.call (h : Grown options timing registry) (c : SurfaceCall) :
    Grown options timing (registry.call c) := by
  cases c with
  | openSurface id =>
    simp only [Registry.call, Registry.openSurface]
    split
    · exact h
    · split
      · exact h
      · refine ⟨h.options_eq, h.timing_eq, ?_⟩
        intro actor hmem
        rcases List.mem_append.1 hmem with hmem | hmem
        · exact h.actors_run actor hmem
        · rw [List.mem_singleton.1 hmem, h.options_eq, h.timing_eq]
          exact ⟨id, [], rfl⟩
  | send id command =>
    rw [call_send]
    cases registry.handle? id with
    | none => exact h
    | some index => exact h.actorCall index (.enqueue command)
  | close id =>
    rw [call_close]
    cases registry.handle? id with
    | none => exact h
    | some index =>
      have hforgotten : Grown options timing
          { registry with handles := registry.handles.filter (·.1 != id) } :=
        ⟨h.options_eq, h.timing_eq, h.actors_run⟩
      exact hforgotten.actorCall index (.enqueue .close)
  | turn index now => exact h.actorCall index (.turn now)
  | timer index now => exact h.actorCall index (.timer now)

theorem Grown.run (h : Grown options timing registry) (calls : List SurfaceCall) :
    Grown options timing (registry.run calls) := by
  induction calls generalizing registry with
  | nil => exact h
  | cons c calls ih => exact ih (h.call c)

theorem grown_empty (options : Document.Options) (timing : Timing) :
    Grown options timing { options, timing } :=
  ⟨rfl, rfl, fun _ h => absurd h List.not_mem_nil⟩

theorem Grown.current (h : Grown options timing registry) {index : Nat} {actor : Actor}
    (hget : registry.actors[index]? = some actor) : actor.Current := by
  obtain ⟨id, calls, rfl⟩ := h.actors_run actor (List.mem_of_getElem? hget)
  exact (Actor.current_start id options timing).run calls

structure Unmoved (before after : Registry) : Prop where
  view_eq : ∀ id, after.view id = before.view id
  document_eq : ∀ id generation, after.document id generation = before.document id generation
  log_eq : after.log = before.log

theorem actor?_eq_some {id : String} {index : Nat} {actor : Actor}
    (hid : registry.handle? id = some index) (hget : registry.actors[index]? = some actor) :
    registry.actor? id = some actor := by
  rw [actor?, hid, Option.bind_some, hget]

theorem find_eq_ok {id : String} {index : Nat} {actor : Actor}
    (hid : registry.handle? id = some index) (hget : registry.actors[index]? = some actor) :
    registry.find id = .ok actor := by
  rw [find, actor?_eq_some hid hget]

theorem actor?_setActor_ne {id : String} {index : Nat} (hid : registry.handle? id ≠ some index)
    (other : Actor) : (registry.setActor index other).actor? id = registry.actor? id := by
  change (registry.handle? id).bind _ = (registry.handle? id).bind _
  cases hi : registry.handle? id with
  | none => rfl
  | some i =>
    have hne : index ≠ i := by
      rintro rfl
      exact hid hi
    exact List.getElem?_set_ne hne

theorem find_setActor_ne {id : String} {index : Nat} (hid : registry.handle? id ≠ some index)
    (other : Actor) : (registry.setActor index other).find id = registry.find id := by
  simp only [find, actor?_setActor_ne hid]

theorem unmoved_setActor {index : Nat} {actor other : Actor}
    (hget : registry.actors[index]? = some actor) (hview : other.view = actor.view)
    (hslot : other.engine.slot = actor.engine.slot) :
    Unmoved registry (registry.setActor index other) := by
  have hset : (registry.setActor index other).actors[index]? = some other :=
    List.getElem?_set_self (List.getElem?_eq_some_iff.1 hget).1
  have hfind : ∀ id, registry.handle? id = some index →
      (registry.setActor index other).find id = .ok other := fun id hid => find_eq_ok hid hset
  refine ⟨fun id => ?_, fun id generation => ?_, rfl⟩
  · by_cases hid : registry.handle? id = some index
    · rw [view, view, find_eq_ok hid hget, hfind id hid]
      exact congrArg Except.ok hview
    · rw [view, view, find_setActor_ne hid]
  · by_cases hid : registry.handle? id = some index
    · rw [document, document, find_eq_ok hid hget, hfind id hid]
      simp only [bind, Except.bind, hslot]
    · rw [document, document, find_setActor_ne hid]

theorem document_eq_ok_iff {id : String} {actor : Actor} (h : registry.find id = .ok actor)
    (generation : Generation) :
    (∃ document, registry.document id generation = .ok document) ↔
      actor.engine.slot.map (·.1) = some generation := by
  rw [document, h]
  cases hslot : actor.engine.slot with
  | none => simp [bind, Except.bind, hslot]
  | some held =>
    by_cases heq : held.1 = generation <;> simp [bind, Except.bind, hslot, heq]

/-- A guest signal that comes up in a surface is taken if and only if it carries the generation that
the surface shows at that moment; otherwise nothing can be seen of it. -/
theorem accepts_iff_shown (options : Document.Options) (timing : Timing) (calls : List SurfaceCall)
    (id : String) (index : Nat) (actor : Actor) (event : GuestReport) (queue : List Command)
    (now : Nat) (led : (run { options, timing } calls).handle? id = some index)
    (found : (run { options, timing } calls).actors[index]? = some actor)
    (next : actor.queue = .guest event :: queue) :
    let registry := run { options, timing } calls
    ((actor.session.handle event now).accepted = true ↔
      ∃ document, registry.document id event.generation = .ok document) ∧
    ((actor.session.handle event now).accepted = false →
      Unmoved registry (registry.call (.turn index now))) := by
  intro registry
  have hcurrent : actor.Current := ((grown_empty options timing).run calls).current found
  constructor
  · rw [document_eq_ok_iff (find_eq_ok led found), Session.handle_accepted]
    exact hcurrent.mounted.accepts_iff event.generation
  · intro hrefused
    rw [Session.handle_accepted] at hrefused
    obtain ⟨queue, hstep⟩ := hcurrent.step_refused next hrefused now
    have hcall : registry.call (.turn index now) =
        registry.setActor index { actor with queue } := by
      rw [call, actorCall_of_some found, Actor.call, hstep, List.append_nil]
      rfl
    rw [hcall]
    exact unmoved_setActor found rfl rfl

def reopened (edits : List Command) (event : GuestReport) : List SurfaceCall :=
  [.openSurface "main", .send "main" (.update Session.sampleSource none), .turn 0 0,
    .close "main", .turn 0 1, .openSurface "main"] ++
  edits.flatMap (fun edit => [.send "main" edit, .turn 1 2]) ++ [.send "main" (.guest event)]

def lateFailure : GuestReport :=
  ⟨1, .mountFailed "late"⟩

theorem unmoved_by_lateFailure :
    let calls := reopened [.update Session.sampleSource none, .refresh] lateFailure
    let registry := run { options := {}, timing := {} } calls
    registry.handle? "main" = some 1 ∧
      ∃ actor, registry.actors[1]? = some actor ∧ actor.queue = [.guest lateFailure] ∧
        (actor.session.handle lateFailure 3).accepted = false ∧
        Unmoved registry (registry.call (.turn 1 3)) := by
  intro calls registry
  have hled : registry.handle? "main" = some 1 := by rfl
  have hactor : registry.actors[1]?.map (fun actor =>
      (actor.queue, (actor.session.handle lateFailure 3).accepted)) =
        some ([.guest lateFailure], false) := by rfl
  obtain ⟨actor, hfound, heq⟩ := Option.map_eq_some_iff.1 hactor
  obtain ⟨hqueue, hrefused⟩ := Prod.mk.inj heq
  have h := accepts_iff_shown {} {} calls "main" 1 actor lateFailure [] 3 hled hfound hqueue
  exact ⟨hled, actor, hfound, hqueue, hrefused, h.2 hrefused⟩

theorem lateFailure_accepted_after_reopening :
    let registry := run { options := {}, timing := {} }
      (reopened [.update Session.sampleSource none] lateFailure)
    (∃ earlier, registry.actors[0]? = some earlier ∧ earlier.session.id = "main" ∧
      earlier.finished = true ∧ .load lateFailure.generation ∈ earlier.engine.sent) ∧
    registry.handle? "main" = some 1 ∧
    (∃ later, registry.actors[1]? = some later ∧ later.queue = [.guest lateFailure] ∧
      (later.session.handle lateFailure 3).accepted = true) ∧
    ¬ Unmoved registry (registry.call (.turn 1 3)) := by
  intro registry
  have hearlier : registry.actors[0]?.map (fun actor =>
      (actor.session.id, actor.finished, actor.engine.sent.take 1)) =
        some ("main", true, [.load lateFailure.generation]) := by rfl
  have hlater : registry.actors[1]?.map (fun actor =>
      (actor.queue, (actor.session.handle lateFailure 3).accepted)) =
        some ([.guest lateFailure], true) := by rfl
  have hbefore : (registry.view "main").toOption.map (·.error) = some none := by rfl
  have hafter : ((registry.call (.turn 1 3)).view "main").toOption.map (·.error) =
      some (some "late") := by rfl
  refine ⟨?_, by rfl, ?_, ?_⟩
  · obtain ⟨earlier, hfound, heq⟩ := Option.map_eq_some_iff.1 hearlier
    simp only [Prod.mk.injEq] at heq
    refine ⟨earlier, hfound, heq.1, heq.2.1, List.mem_of_mem_take (i := 1) ?_⟩
    rw [heq.2.2]
    exact List.mem_singleton_self _
  · obtain ⟨later, hfound, heq⟩ := Option.map_eq_some_iff.1 hlater
    exact ⟨later, hfound, Prod.mk.inj heq⟩
  · intro hunmoved
    rw [hunmoved.view_eq, hbefore] at hafter
    cases hafter

end Registry

end LivePreview
