import LivePreview.Surface.Event
import LivePreview.Proofs.Session.Update

/-!
What pages find in the slot. A page engine takes every load, so the slot of an open session holds the
document of the current source under the current generation, and nothing when there is no source.
-/

namespace LivePreview.Session

structure Mounted (s : Session PageEngine) : Prop where
  live_eq : s.host.live = s.document.isSome
  slot_eq : s.host.engine.slot = s.document.map (s.generation, ·)
  document_eq : s.document = if s.host.closed then none else
    s.source.map fun source => .ofSource source.text s.options

variable {s t : Session PageEngine}

theorem mounted_start (id : String) (options : Document.Options) (timing : Timing) :
    (start id ({} : PageEngine) options timing).Mounted :=
  ⟨rfl, rfl, rfl⟩

theorem slot_teardown (host : Host PageEngine) (h : host.live = false → host.engine.slot = none) :
    host.teardown.engine.slot = none := by
  cases hl : host.live with
  | true => simp [Host.teardown, hl, Engine.teardown, PageEngine.teardown, PageEngine.send]
  | false => simpa [Host.teardown, hl] using h hl

theorem Mounted.slot_of_not_live (h : s.Mounted) (hl : s.host.live = false) :
    s.host.engine.slot = none := by
  have hd : s.document = none := by
    rw [h.live_eq] at hl
    simpa using hl
  rw [h.slot_eq, hd]
  rfl

theorem Mounted.of_frame (h : s.Mounted) (hf : t.frame = s.frame) : t.Mounted := by
  obtain ⟨hl, hs, hd⟩ := h
  simp only [frame, Prod.mk.injEq] at hf
  obtain ⟨-, hoptions, -, hhost, hsource, -, hdocument⟩ := hf
  refine ⟨?_, ?_, ?_⟩
  · rw [hhost, hdocument, hl]
  · rw [generation, hhost, hdocument]
    exact hs
  · rw [hhost, hdocument, hsource, hoptions]
    exact hd

theorem reload_eq (h : s.host.closed = false) (document : Document) (now : Nat) :
    s.reload document now = (.ok (), s.loading
      (s.host.afterLoad (PageEngine.load s.host.engine (s.host.generation + 1) document).2 true)
      document now) := by
  rcases reload_cases h document now with ⟨engine, he, hr⟩ | ⟨failure, engine, he, -⟩
  · rw [hr]
    cases he
    rfl
  · cases he

theorem Mounted.update (h : s.Mounted) (source : Source) (token : UInt64) (now : Nat) :
    (s.update source token now).2.Mounted := by
  rcases s.update_cases source token now with
    ⟨hc, hu⟩ | ⟨hc, hs, hu⟩ | ⟨hc, hs, he, ht, hu⟩ | ⟨hc, hs, t, ht, hu⟩
  · rw [hu]
    exact h
  · rw [hu]
    refine ⟨rfl, slot_teardown s.host h.slot_of_not_live, ?_⟩
    exact (ite_self _).symm
  · rw [hu]
    exact ⟨h.live_eq, h.slot_eq, h.document_eq⟩
  · have htc : t.host.closed = false := by rw [ht.closed_eq, hc]
    rw [hu, reload_eq htc]
    refine ⟨rfl, rfl, ?_⟩
    cases ht with
    | refresh he hx => simp [loading, Host.afterLoad, tornDown, Host.teardown, see, he, hc]
    | change he => simp [loading, Host.afterLoad, see, hc]

theorem Mounted.handle (h : s.Mounted) (event : GuestReport) (now : Nat) :
    (s.handle event now).session.Mounted :=
  h.of_frame (s.handle_frame event now)

theorem Mounted.tick (h : s.Mounted) (now : Nat) : (s.tick now).Mounted :=
  h.of_frame (s.tick_frame now)

theorem Mounted.close (h : s.Mounted) : s.close.Mounted := by
  rw [Session.close]
  cases hc : s.host.closed with
  | true => exact h
  | false =>
    simp only [Bool.false_eq_true, if_false, Host.close, hc]
    exact ⟨rfl, slot_teardown s.host h.slot_of_not_live, rfl⟩

theorem Mounted.withEngine (h : s.Mounted) {engine : PageEngine}
    (hslot : engine.slot = s.host.engine.slot) : (s.withEngine engine).Mounted :=
  ⟨h.live_eq, hslot.trans h.slot_eq, h.document_eq⟩

theorem Mounted.accepts_iff (h : s.Mounted) (generation : Generation) :
    s.host.accepts generation = true ↔ s.host.engine.slot.map (·.1) = some generation := by
  rw [h.slot_eq, Host.accepts, h.live_eq]
  cases hd : s.document with
  | none => simp
  | some document =>
    have hc : s.host.closed = false := by
      cases hc : s.host.closed with
      | false => rfl
      | true =>
        rw [h.document_eq, hc] at hd
        cases hd
    rw [hc, Option.map_some, Option.map_some, Option.some_inj]
    simp only [Bool.not_false, Option.isSome_some, Bool.and_true, Bool.true_and, beq_iff_eq]
    exact eq_comm

end LivePreview.Session
