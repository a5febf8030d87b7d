import LivePreview.Proofs.Session.Overlay

/-!
A session is cleared, or it has a load that stands somewhere, with the cross-fade that goes with
that standing. Every call keeps it so, and the rules on its fields are read off from there.
-/

namespace LivePreview

namespace Session

variable {ε : Type}

theorem finishLoad_crossfade (s : Session ε) (now : Nat) :
    (s.finishLoad now).crossfade = s.crossfade ∧
      (s.finishLoad now).crossfadeDue = some (now + s.timing.crossfade) := by
  simp only [finishLoad]
  split <;> exact ⟨rfl, rfl⟩

theorem expireLoad_crossfade (s : Session ε) (now : Nat) :
    (s.expireLoad now).crossfade = s.crossfade ∧
      (s.expireLoad now).crossfadeDue = s.crossfadeDue := by
  simp only [expireLoad]
  split
  · split <;> exact ⟨rfl, rfl⟩
  · exact ⟨rfl, rfl⟩

theorem tick_of_no_deadline {s : Session ε} (hf : s.crossfadeDue = none) (hl : s.loadDue = none)
    (now : Nat) : s.tick now = s := by
  simp [tick, endCrossfade, expireLoad, isDue, hf, hl]

end Session

namespace Standing

variable {ε : Type} {s : Session ε} {standing : Standing}

def Fades (s : Session ε) : Standing → Prop
  | .failed _ => s.crossfade = false
  | .finished => s.crossfade = true → s.crossfadeDue ≠ none
  | .overdue | .waiting => s.crossfade = true ∧ s.crossfadeDue = none

theorem fades_hear_failure {signal : Signal} (h : signal.failure?.isSome = true) (text : String) :
    (standing.hear signal).Fades (s.fail text) := by
  obtain ⟨message, hmessage⟩ := Option.isSome_iff_exists.1 h
  have hfailed : standing.hear signal = .failed message := by
    cases standing <;> simp [hear, hmessage]
  rw [hfailed]
  rfl

theorem Fades.finishLoad (h : standing.Fades s) (now : Nat) :
    (standing.hear .loaded).Fades (s.finishLoad now) := by
  obtain ⟨hfade, hdue⟩ := s.finishLoad_crossfade now
  cases standing with
  | failed text => exact hfade.trans h
  | finished | overdue | waiting =>
    intro _
    rw [hdue]
    exact Option.some_ne_none _

theorem Fades.handle (h : standing.Fades s) {event : GuestReport}
    (ha : s.host.accepts event.generation = true) (now : Nat) :
    (standing.hear event.signal).Fades (s.handle event now).session := by
  obtain ⟨generation, signal⟩ := event
  simp only [Session.handle, ha, if_true]
  cases signal with
  | loaded => exact h.finishLoad now
  | loadFailed error => exact fades_hear_failure rfl _
  | mountFailed error => exact fades_hear_failure rfl _
  | bridge channel payload =>
    have hheard : standing.hear (.bridge channel payload) = standing := by cases standing <;> rfl
    simp only [hheard]
    split <;> exact h

theorem Fades.pass (h : standing.Fades s) (late : Bool) : (standing.pass late).Fades s := by
  cases standing with
  | failed text | finished | overdue => exact h
  | waiting => cases late <;> exact h

theorem Fades.tick (h : standing.Fades s) (now : Nat) : standing.Fades (s.tick now) := by
  obtain ⟨hfade, hdue⟩ := (s.endCrossfade now).expireLoad_crossfade now
  have hend : standing.Fades (s.endCrossfade now) := by
    unfold Session.endCrossfade
    split
    · rename_i hpast
      cases standing with
      | failed text => rfl
      | finished => exact fun hon => by cases hon
      | overdue | waiting => simp [Session.isDue, h.2] at hpast
    · exact h
  unfold Fades at hend ⊢
  rw [Session.tick, hfade, hdue]
  exact hend

end Standing

namespace Session

variable {ε : Type} {s t : Session ε}

structure Cleared (s : Session ε) : Prop where
  phase_eq : s.phase = .idle
  error_eq : s.error = none
  blocked_eq : s.blocked = false
  crossfade_eq : s.crossfade = false
  crossfadeDue_eq : s.crossfadeDue = none
  loadDue_eq : s.loadDue = none
  document_eq : s.document = none
  dead : s.host.live = false

structure Mounting (standing : Standing) (loadedAt : Nat) (s : Session ε) : Prop where
  shows : standing.Shows loadedAt s
  fades : standing.Fades s
  mounted : s.document ≠ none
  opened : s.host.closed = false
  live : standing.blocked = false → s.host.live = true

def Placed (s : Session ε) : Prop :=
  s.Cleared ∨ ∃ standing loadedAt, s.Mounting standing loadedAt

theorem placed_start (id : String) (engine : ε) (options : Document.Options) (timing : Timing) :
    (start id engine options timing).Placed :=
  .inl ⟨rfl, rfl, rfl, rfl, rfl, rfl, rfl, rfl⟩

theorem Placed.beside (h : s.Placed) (refreshToken : Option UInt64) (engine : ε) :
    ({ s with refreshToken, host := { s.host with engine } } : Session ε).Placed := by
  rcases h with ⟨hp, he, hb, hf, hfd, hld, hd, hl⟩ |
    ⟨standing, loadedAt, ⟨hp, he, hb, hd⟩, hf, hm, ho, hl⟩
  · exact .inl ⟨hp, he, hb, hf, hfd, hld, hd, hl⟩
  · exact .inr ⟨standing, loadedAt, ⟨hp, he, hb, hd⟩, hf, hm, ho, hl⟩

theorem Mounting.handle {standing : Standing} {loadedAt : Nat} (h : s.Mounting standing loadedAt)
    {event : GuestReport} (ha : s.host.accepts event.generation = true) (now : Nat) :
    (s.handle event now).session.Mounting (standing.hear event.signal) loadedAt := by
  have hframe := s.handle_frame event now
  simp only [frame, Prod.mk.injEq] at hframe
  obtain ⟨-, -, -, hhost, -, -, hdocument⟩ := hframe
  have hlive : s.host.live = true := by
    simp only [Host.accepts, Bool.and_eq_true] at ha
    exact ha.1.2
  refine ⟨h.shows.handle ha now, h.fades.handle ha now, ?_, ?_, fun _ => ?_⟩
  · rw [hdocument]
    exact h.mounted
  · rw [hhost]
    exact h.opened
  · rw [hhost]
    exact hlive

theorem Placed.handle (h : s.Placed) (event : GuestReport) (now : Nat) :
    (s.handle event now).session.Placed := by
  cases ha : s.host.accepts event.generation with
  | false =>
    rw [handle_of_not_accepts ha]
    exact h
  | true =>
    rcases h with h | ⟨standing, loadedAt, h⟩
    · simp [Host.accepts, h.dead] at ha
    · exact .inr ⟨_, loadedAt, h.handle ha now⟩

theorem Placed.tick (h : s.Placed) (now : Nat) : (s.tick now).Placed := by
  rcases h with h | ⟨standing, loadedAt, h⟩
  · rw [tick_of_no_deadline h.crossfadeDue_eq h.loadDue_eq]
    exact .inl h
  · have hframe := s.tick_frame now
    simp only [frame, Prod.mk.injEq] at hframe
    obtain ⟨-, -, -, hhost, -, -, hdocument⟩ := hframe
    refine .inr ⟨_, loadedAt, h.shows.tick now, (h.fades.pass _).tick now, ?_, ?_, fun hb => ?_⟩
    · rw [hdocument]
      exact h.mounted
    · rw [hhost]
      exact h.opened
    · rw [hhost]
      exact h.live (by cases standing <;> first | rfl | exact hb)

structure Coherent (s : Session ε) : Prop where
  ready : s.phase = .ready →
    s.host.live = true ∧ s.error = none ∧ s.blocked = false ∧ s.loadDue = none
  document : s.document = none ↔ s.phase = .idle
  idle : s.phase = .idle → s.host.live = false ∧ s.error = none ∧ s.blocked = false ∧
    s.crossfade = false ∧ s.crossfadeDue = none ∧ s.loadDue = none
  loading : s.phase = .loading → s.host.live = true ∨ s.blocked = true
  blocked : s.blocked = true →
    s.phase = .loading ∧ s.error ≠ none ∧ s.crossfade = false ∧ s.loadDue = none
  crossfade : s.crossfade = true → s.host.live = true ∧ s.blocked = false ∧
    (s.phase = .ready → s.crossfadeDue ≠ none)
  deadlines : s.crossfadeDue = none ∨ s.loadDue = none
  timeout : 0 < s.timing.loadTimeoutMs → s.phase = .loading → s.error = none → s.loadDue ≠ none
  error : s.error ≠ none → s.phase = .loading
  closed : s.host.closed = true → s.phase = .idle

theorem Cleared.coherent (h : s.Cleared) : s.Coherent := by
  obtain ⟨hp, he, hb, hf, hfd, hld, hd, hl⟩ := h
  constructor <;> simp [hp, he, hb, hf, hfd, hld, hd, hl]

theorem Mounting.coherent {standing : Standing} {loadedAt : Nat} (h : s.Mounting standing loadedAt) :
    s.Coherent := by
  obtain ⟨⟨hp, he, hb, hd⟩, hf, hm, ho, hl⟩ := h
  cases standing with
  | failed text =>
    simp only [Standing.phase, Standing.error, Standing.blocked, Standing.loadDue] at hp he hb hd
    replace hf : s.crossfade = false := hf
    constructor <;> simp [hp, he, hb, hd, hf, hm, ho]
  | finished =>
    simp only [Standing.phase, Standing.error, Standing.blocked, Standing.loadDue] at hp he hb hd
    replace hf : s.crossfade = true → s.crossfadeDue ≠ none := hf
    constructor <;> simp [hp, he, hb, hd, hm, ho, hl rfl]
    exact hf
  | overdue =>
    simp only [Standing.phase, Standing.error, Standing.blocked, Standing.loadDue] at hp he hb hd
    constructor <;> simp [hp, he, hb, hd, hf.1, hf.2, hm, ho, hl rfl]
  | waiting =>
    simp only [Standing.phase, Standing.error, Standing.blocked, Standing.loadDue] at hp he hb hd
    -- The only standing with a deadline of its own, if loads have one at all.
    have hdue : 0 < s.timing.loadTimeoutMs → s.loadDue ≠ none := by
      intro hpos
      simp [hd, Timing.loadLimit, hpos]
    constructor <;> simp [hp, he, hb, hf.1, hf.2, hm, ho, hl rfl]
    exact hdue

theorem Placed.coherent (h : s.Placed) : s.Coherent := by
  rcases h with h | ⟨standing, loadedAt, h⟩
  · exact h.coherent
  · exact h.coherent

variable [Engine ε]

theorem placed_reload (h : s.host.closed = false) (document : Document) (now : Nat) :
    (s.reload document now).2.Placed := by
  rcases reload_cases h document now with ⟨engine, -, hr⟩ | ⟨failure, engine, -, hr⟩
  · rw [hr]
    exact .inr ⟨.waiting, now, Standing.shows_loading s _ document now, ⟨rfl, rfl⟩,
      Option.some_ne_none _, h, fun _ => rfl⟩
  · rw [hr]
    exact .inr ⟨.failed failure.message, now, Standing.shows_fail _ _ now, rfl,
      Option.some_ne_none _, h, fun hb => by cases hb⟩

theorem Placed.step (h : s.Placed) (call : SessionCall ε) : (s.step call).Placed := by
  cases call with
  | update source token now =>
    change (s.update source token now).2.Placed
    rcases s.update_cases source token now with
      ⟨-, hu⟩ | ⟨-, -, hu⟩ | ⟨-, -, -, -, hu⟩ | ⟨hc, -, t, ht, hu⟩
    · rw [hu]
      exact h
    · rw [hu]
      exact .inl ⟨rfl, rfl, rfl, rfl, rfl, rfl, rfl, rfl⟩
    · rw [hu]
      exact h.beside _ s.host.engine
    · rw [hu]
      exact placed_reload (by rw [ht.closed_eq, hc]) _ now
  | handle event now => exact h.handle event now
  | tick now => exact h.tick now
  | close =>
    change s.close.Placed
    cases hc : s.host.closed with
    | true =>
      rw [close, if_pos hc]
      exact h
    | false =>
      rw [close, if_neg (by simp [hc]), Host.close, if_neg (by simp [hc])]
      exact .inl ⟨rfl, rfl, rfl, rfl, rfl, rfl, rfl, rfl⟩
  | engineMoves move => exact h.beside s.refreshToken (move s.host.engine)

theorem Placed.run (h : s.Placed) (calls : List (SessionCall ε)) : (s.run calls).Placed := by
  induction calls generalizing s with
  | nil => exact h
  | cons call calls ih => exact ih (h.step call)

/-- The fields of a session agree after any calls at any times, whatever the engine refuses. -/
theorem fields_cohere (id : String) (engine : ε) (options : Document.Options) (timing : Timing)
    (calls : List (SessionCall ε)) :
    let s := (start id engine options timing).run calls
    s.timing = timing ∧ s.Coherent := by
  intro s
  refine ⟨?_, ((placed_start id engine options timing).run calls).coherent⟩
  exact congrArg (·.2.2) (run_settings (start id engine options timing) calls)

end Session

end LivePreview
