import LivePreview.Proofs.Surface.Incarnation

namespace LivePreview.Registry

variable {registry : Registry} {options : Document.Options} {timing : Timing}

def takes (registry : Registry) (index : Nat) : SurfaceCall → List Command
  | .turn i now =>
      if i = index then registry.actors[index]?.elim [] (·.takes (.turn now)) else []
  | _ => []

def taken (index : Nat) : Registry → List SurfaceCall → List Command
  | _, [] => []
  | registry, call :: calls => registry.takes index call ++ taken index (registry.call call) calls

def lastSource? (registry : Registry) (index : Nat) : Option Source :=
  registry.actors[index]?.bind (·.lastSource)

theorem actorCall_lastSource? (registry : Registry) (index i : Nat) (c : ActorCall) :
    (registry.actorCall i c).lastSource? index =
      ((if i = index then registry.actors[index]?.elim [] (·.takes c) else []).filterMap
        Command.source?).getLast?.or (registry.lastSource? index) := by
  cases hget : registry.actors[i]? with
  | none =>
    by_cases hi : i = index
    · subst hi
      simp [actorCall, lastSource?, hget]
    · simp [actorCall, hget, hi]
  | some actor =>
    obtain ⟨hlt, -⟩ := List.getElem?_eq_some_iff.1 hget
    rw [actorCall_of_some hget]
    by_cases hi : i = index
    · subst hi
      simp only [lastSource?, setActor, List.getElem?_set_self hlt, hget, if_true]
      exact actor.call_lastSource c
    · simp [lastSource?, setActor, List.getElem?_set_ne hi, hi]

theorem call_lastSource? (registry : Registry) (index : Nat) (c : SurfaceCall) :
    (registry.call c).lastSource? index =
      ((registry.takes index c).filterMap Command.source?).getLast?.or
        (registry.lastSource? index) := by
  cases c with
  | openSurface id =>
    simp only [call, openSurface, takes, List.filterMap_nil, List.getLast?_nil, Option.none_or]
    split
    · rfl
    · split
      · rfl
      · -- A fresh actor has taken up nothing yet.
        simp only [Except.toOption, Option.elim_some, lastSource?, List.getElem?_append]
        by_cases hlt : index < registry.actors.length
        · rw [if_pos hlt]
        · rw [if_neg hlt, List.getElem?_singleton,
            List.getElem?_eq_none (Nat.le_of_not_lt hlt)]
          split <;> rfl
  | send id command =>
    rw [call_send]
    cases registry.handle? id with
    | none => rfl
    | some i =>
      rw [Option.elim_some, actorCall_lastSource?]
      cases registry.actors[index]? <;> simp [takes, Actor.takes]
  | close id =>
    rw [call_close]
    cases registry.handle? id with
    | none => rfl
    | some i =>
      rw [Option.elim_some, actorCall_lastSource?]
      cases hget : registry.actors[index]? <;> simp [takes, Actor.takes, hget, lastSource?]
  | turn i now => exact registry.actorCall_lastSource? index i (.turn now)
  | timer i now =>
    change (registry.actorCall i (.timer now)).lastSource? index = _
    rw [actorCall_lastSource?]
    cases registry.actors[index]? <;> simp [takes, Actor.takes]

theorem run_lastSource? (registry : Registry) (index : Nat) (calls : List SurfaceCall) :
    (registry.run calls).lastSource? index =
      ((taken index registry calls).filterMap Command.source?).getLast?.or
        (registry.lastSource? index) := by
  induction calls generalizing registry with
  | nil => rfl
  | cons c calls ih =>
    change ((registry.call c).run calls).lastSource? index = _
    rw [ih, call_lastSource?, taken, List.filterMap_append, List.getLast?_append, Option.or_assoc]

def Led (registry : Registry) : Prop :=
  ∀ handle ∈ registry.handles, handle.2 < registry.actors.length

theorem actorCall_length (registry : Registry) (index : Nat) (c : ActorCall) :
    (registry.actorCall index c).actors.length = registry.actors.length := by
  unfold actorCall
  split <;> simp [setActor]

theorem actorCall_handles (registry : Registry) (index : Nat) (c : ActorCall) :
    (registry.actorCall index c).handles = registry.handles := by
  unfold actorCall
  split <;> rfl

theorem Led.actorCall (h : registry.Led) (index : Nat) (c : ActorCall) :
    (registry.actorCall index c).Led := by
  intro handle hmem
  rw [actorCall_handles] at hmem
  rw [actorCall_length]
  exact h handle hmem

theorem Led.call (h : registry.Led) (c : SurfaceCall) : (registry.call c).Led := by
  cases c with
  | openSurface id =>
    simp only [Registry.call, openSurface]
    split
    · exact h
    · split
      · exact h
      · intro handle hmem
        simp only [Except.toOption, Option.elim_some, List.length_append, List.length_singleton]
          at hmem ⊢
        rcases List.mem_append.1 hmem with hmem | hmem
        · exact Nat.lt_succ_of_lt (h handle hmem)
        · rw [List.mem_singleton.1 hmem]
          exact Nat.lt_succ_self _
  | send id command =>
    rw [call_send]
    cases registry.handle? id with
    | none => exact h
    | some index => exact h.actorCall index _
  | close id =>
    rw [call_close]
    cases registry.handle? id with
    | none => exact h
    | some index =>
      have hforgotten : Led { registry with handles := registry.handles.filter (·.1 != id) } :=
        fun handle hmem => h handle (List.mem_filter.1 hmem).1
      exact hforgotten.actorCall index _
  | turn index now => exact h.actorCall index _
  | timer index now => exact h.actorCall index _

theorem Led.run (h : registry.Led) (calls : List SurfaceCall) : (registry.run calls).Led := by
  induction calls generalizing registry with
  | nil => exact h
  | cons c calls ih => exact ih (h.call c)

theorem Led.exists_actor (h : registry.Led) {id : String} {index : Nat}
    (hid : registry.handle? id = some index) : ∃ actor, registry.actors[index]? = some actor := by
  obtain ⟨handle, hfind, rfl⟩ := Option.map_eq_some_iff.1 hid
  exact ⟨_, List.getElem?_eq_getElem (h handle (List.mem_of_find?_eq_some hfind))⟩

theorem Grown.session_options (h : Grown options timing registry) {index : Nat} {actor : Actor}
    (hget : registry.actors[index]? = some actor) : actor.session.options = options := by
  obtain ⟨id, calls, rfl⟩ := h.actors_run actor (List.mem_of_getElem? hget)
  exact congrArg (·.2.1) (Actor.run_settings (.start id options timing) calls)

theorem find_of_unknown {id : String} (h : registry.handle? id = none) :
    registry.find id = .error (.unknownSession id) := by
  simp [find, actor?, h]

theorem document_eq {id : String} {actor : Actor} (h : registry.find id = .ok actor)
    (generation : Generation) :
    registry.document id generation =
      match actor.engine.slot with
      | some (held, document) =>
          if held = generation then .ok document else .error (.unknownDocument id generation)
      | none => .error (.unknownDocument id generation) := by
  rw [document, h]
  rfl

theorem document_of_find_error {id : String} {error : SurfaceError}
    (h : registry.find id = .error error) (generation : Generation) :
    registry.document id generation = .error error := by
  rw [document, h]
  rfl

theorem slot_of_document {id : String} {actor : Actor} {generation : Generation}
    {document : Document} (h : registry.find id = .ok actor)
    (hdocument : registry.document id generation = .ok document) :
    actor.engine.slot = some (generation, document) := by
  rw [document_eq h] at hdocument
  split at hdocument
  · split at hdocument
    · rename_i hslot hheld
      cases hdocument
      rw [hslot, hheld]
    · cases hdocument
  · cases hdocument

theorem kind_of_find_error {id : String} {error : SurfaceError}
    (h : registry.find id = .error error) : error.kind = .notFound := by
  rw [find] at h
  split at h
  · cases h
  · cases h
    rfl

theorem kind_of_document_error {id : String} {generation : Generation} {error : SurfaceError}
    (h : registry.document id generation = .error error) : error.kind = .notFound := by
  cases hfind : registry.find id with
  | error other =>
    rw [document_of_find_error hfind] at h
    cases h
    exact kind_of_find_error hfind
  | ok actor =>
    rw [document_eq hfind] at h
    split at h
    · split at h <;> cases h
      rfl
    · cases h
      rfl

end LivePreview.Registry

namespace LivePreview.Actor

variable {actor : Actor}

theorem Current.slot_iff (h : actor.Current) (generation : Generation) :
    actor.engine.slot.map (·.1) = some generation ↔
      actor.view.hasDocument = true ∧ actor.view.generation = generation := by
  rw [engine, h.mounted.slot_eq, h.view_eq]
  simp only [View.ofSession, h.mounted.live_eq]
  cases actor.session.document <;> simp

theorem Current.document_of_slot (h : actor.Current) {generation : Generation}
    {document : Document} (hslot : actor.engine.slot = some (generation, document)) :
    ∃ source, actor.lastSource = some source ∧ source.isEmpty = false ∧
      document = .ofSource source.text actor.session.options := by
  rw [engine, h.mounted.slot_eq, h.mounted.document_eq, h.closed_eq] at hslot
  cases hf : actor.finished with
  | true => simp [hf] at hslot
  | false =>
    rw [hf, h.source_eq hf] at hslot
    simp only [Bool.false_eq_true, if_false, Option.map_map, Option.map_eq_some_iff,
      Option.filter_eq_some_iff, Function.comp_apply, Prod.mk.injEq, Bool.not_eq_true'] at hslot
    obtain ⟨source, ⟨hlast, hprogram⟩, -, rfl⟩ := hslot
    exact ⟨source, hlast, hprogram, rfl⟩

end LivePreview.Actor

namespace LivePreview.Registry

variable {registry : Registry} {options : Document.Options} {timing : Timing}

theorem Grown.served_iff (h : Grown options timing registry) (hled : registry.Led) (id : String)
    (generation : Generation) :
    (∃ document, registry.document id generation = .ok document) ↔
      ∃ index view, registry.handle? id = some index ∧ registry.view id = .ok view ∧
        view.hasDocument = true ∧ view.generation = generation := by
  cases hid : registry.handle? id with
  | none => simp [document_of_find_error (find_of_unknown hid)]
  | some index =>
    obtain ⟨actor, hget⟩ := hled.exists_actor hid
    have hfind := find_eq_ok hid hget
    have hview : registry.view id = .ok actor.view := by
      rw [view, hfind]
      rfl
    rw [document_eq_ok_iff hfind, (h.current hget).slot_iff, hview]
    simp

theorem Grown.document_of_served (h : Grown options timing registry) (hled : registry.Led)
    {id : String} {generation : Generation} {document : Document}
    (hdocument : registry.document id generation = .ok document) :
    ∃ index source, registry.handle? id = some index ∧
      registry.lastSource? index = some source ∧ source.isEmpty = false ∧
      document = .ofSource source.text options := by
  cases hid : registry.handle? id with
  | none =>
    rw [document_of_find_error (find_of_unknown hid)] at hdocument
    cases hdocument
  | some index =>
    obtain ⟨actor, hget⟩ := hled.exists_actor hid
    obtain ⟨source, hlast, hprogram, rfl⟩ :=
      (h.current hget).document_of_slot (slot_of_document (find_eq_ok hid hget) hdocument)
    exact ⟨index, source, rfl, by simp [lastSource?, hget, hlast], hprogram,
      by rw [h.session_options hget]⟩

/-- A document is served under the generation that the view of an open surface shows, if it shows one:
that of the last source that the surface took up. Every other answer is that nothing is found. -/
theorem document_served (options : Document.Options) (timing : Timing) (calls : List SurfaceCall)
    (id : String) (generation : Generation) :
    let registry := run { options, timing } calls
    ((∃ document, registry.document id generation = .ok document) ↔
      ∃ index view, registry.handle? id = some index ∧ registry.view id = .ok view ∧
        view.hasDocument = true ∧ view.generation = generation) ∧
    (∀ document, registry.document id generation = .ok document →
      ∃ index source, registry.handle? id = some index ∧
        ((taken index { options, timing } calls).filterMap Command.source?).getLast? =
          some source ∧
        source.isEmpty = false ∧ document = .ofSource source.text options) ∧
    (∀ error, registry.document id generation = .error error → error.kind = .notFound) := by
  intro registry
  have hgrown : Grown options timing registry := (grown_empty options timing).run calls
  have hled : registry.Led := Led.run (fun _ h => absurd h List.not_mem_nil) calls
  refine ⟨hgrown.served_iff hled id generation, ?_, fun error => kind_of_document_error⟩
  intro document hdocument
  obtain ⟨index, source, hid, hlast, hprogram, hsource⟩ := hgrown.document_of_served hled hdocument
  refine ⟨index, source, hid, ?_, hprogram, hsource⟩
  -- The registry was empty at first, so the last source is one that was taken up in the run.
  rw [run_lastSource?, lastSource?, List.getElem?_nil, Option.bind_none, Option.or_none] at hlast
  exact hlast

end LivePreview.Registry
