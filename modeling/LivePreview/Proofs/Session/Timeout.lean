import LivePreview.Proofs.Session.Coherence
import LivePreview.Proofs.Session.Silence

/-!
What a session would be if its loads had no limit can be told from the session as it is, and every
call takes the one to the other.
-/

namespace LivePreview

def Timing.unlimited (timing : Timing) : Timing :=
  { timing with loadTimeoutMs := 0 }

namespace Session

variable {ε : Type} {s t : Session ε}

/-- The session without a limit to its loads. Only a blocked session has an error of its own. -/
def unlimited (s : Session ε) : Session ε :=
  { s with
    timing := s.timing.unlimited
    loadDue := none
    error := if s.blocked then s.error else none }

theorem unlimited_start (id : String) (engine : ε) (options : Document.Options) (timing : Timing) :
    (start id engine options timing).unlimited = start id engine options timing.unlimited := rfl

theorem unlimited_finishLoad (s : Session ε) (now : Nat) :
    s.unlimited.finishLoad now = (s.finishLoad now).unlimited := by
  cases hb : s.blocked <;> simp [finishLoad, unlimited, hb, Timing.crossfade, Timing.unlimited]

theorem unlimited_handle (s : Session ε) (event : GuestReport) (now : Nat) :
    s.unlimited.handle event now =
      ⟨(s.handle event now).accepted, (s.handle event now).session.unlimited,
        (s.handle event now).entry⟩ := by
  cases ha : s.host.accepts event.generation with
  | false => rw [handle_of_not_accepts ha, handle_of_not_accepts (s := s.unlimited) ha]
  | true =>
    have hu : s.unlimited.host.accepts event.generation = true := ha
    simp only [handle, ha, hu, if_true]
    cases event.signal with
    | loaded => simp only [unlimited_finishLoad]
    | loadFailed error => rfl
    | mountFailed error => rfl
    | bridge channel payload =>
      dsimp only
      split <;> rfl

theorem unlimited_endCrossfade (s : Session ε) (now : Nat) :
    s.unlimited.endCrossfade now = (s.endCrossfade now).unlimited := by
  have hdue : s.unlimited.crossfadeDue = s.crossfadeDue := rfl
  simp only [endCrossfade, hdue]
  split <;> rfl

theorem unlimited_expireLoad (h : s.blocked = true → s.loadDue = none) (now : Nat) :
    (s.expireLoad now).unlimited = s.unlimited := by
  unfold expireLoad
  split
  · rename_i hpast
    have hb : s.blocked = false := by
      cases hb : s.blocked with
      | false => rfl
      | true => simp [isDue, h hb] at hpast
    split <;> simp [unlimited, hb]
  · rfl

theorem unlimited_tick (h : s.blocked = true → s.loadDue = none) (now : Nat) :
    s.unlimited.tick now = (s.tick now).unlimited := by
  have hend : (s.endCrossfade now).blocked = true → (s.endCrossfade now).loadDue = none := by
    unfold endCrossfade
    split <;> exact h
  have hnone : (s.endCrossfade now).unlimited.expireLoad now = (s.endCrossfade now).unlimited := by
    simp [expireLoad, isDue, unlimited]
  rw [tick, tick, unlimited_endCrossfade, hnone, unlimited_expireLoad hend]

/-- Two sessions that show the same, but that a message of the time limit may lie over the first
where the second is loading without an error. -/
structure Overlaid (s t : Session ε) : Prop where
  phase_eq : s.phase = t.phase
  crossfade_eq : s.crossfade = t.crossfade
  crossfadeDue_eq : s.crossfadeDue = t.crossfadeDue
  host_eq : s.host = t.host
  source_eq : s.source = t.source
  document_eq : s.document = t.document
  token_eq : s.refreshToken = t.refreshToken
  error_eq : s.error = t.error ∨
    t.error = none ∧ t.phase = .loading ∧ s.error = some (timeoutMessage s.timing)

theorem Placed.overlaid (h : s.Placed) : s.Overlaid s.unlimited := by
  refine ⟨rfl, rfl, rfl, rfl, rfl, rfl, rfl, ?_⟩
  rcases h with h | ⟨standing, loadedAt, ⟨⟨hp, he, hb, -⟩, -, -, -, -⟩⟩
  · left
    simp [unlimited, h.error_eq]
  · cases standing with
    | failed text => exact .inl (by simp [unlimited, hb, Standing.blocked])
    | overdue => exact .inr ⟨by simp [unlimited, hb, Standing.blocked], hp, he⟩
    | finished | waiting => exact .inl (by simp [unlimited, he, Standing.error])

theorem finishLoad_eq (s : Session ε) (now : Nat) :
    s.finishLoad now = { (s.finishLoad now).unlimited with timing := s.timing } := by
  cases hb : s.blocked <;> simp [finishLoad, unlimited, hb]

variable [Engine ε]

theorem Reloads.unlimited {source : Source} {token : UInt64} (h : Reloads s source token t) :
    Reloads s.unlimited source token t.unlimited := by
  cases h with
  | refresh hu ht => exact .refresh hu ht
  | change hu => exact .change hu

theorem unlimited_reload (s : Session ε) (document : Document) (now : Nat) :
    s.unlimited.reload document now =
      ((s.reload document now).1, (s.reload document now).2.unlimited) := by
  have hload : s.unlimited.host.load document = s.host.load document := rfl
  simp only [reload, hload]
  obtain ⟨result, host⟩ := s.host.load document
  cases result <;> rfl

theorem unlimited_update (s : Session ε) (source : Source) (token : UInt64) (now : Nat) :
    s.unlimited.update source token now =
      ((s.update source token now).1, (s.update source token now).2.unlimited) := by
  rcases s.update_cases source token now with
    ⟨hc, hu⟩ | ⟨hc, hs, hu⟩ | ⟨hc, hs, he, ht, hu⟩ | ⟨hc, hs, t, ht, hu⟩
  · rw [hu, update_of_closed (s := s.unlimited) hc]
  · rw [hu, update_of_isEmpty (s := s.unlimited) hc hs]
    rfl
  · rw [hu, update_of_unchanged (s := s.unlimited) hc hs he ht]
    rfl
  · rw [hu, update_of_reloads (s := s.unlimited) hc hs ht.unlimited]
    exact t.unlimited_reload _ now

theorem unlimited_close (s : Session ε) : s.unlimited.close = s.close.unlimited := by
  cases hc : s.host.closed <;> simp [close, unlimited, clear, hc]

theorem unlimited_actsOf (s : Session ε) (call : SessionCall ε) :
    s.unlimited.actsOf call = s.actsOf call := by
  cases call with
  | update source token now =>
    rw [actsOf_update, actsOf_update]
    rfl
  | handle event now => rw [actsOf_handle, actsOf_handle]
  | tick now => rw [actsOf_tick, actsOf_tick]
  | close =>
    rw [actsOf_close, actsOf_close]
    rfl
  | engineMoves move => rw [actsOf_engineMoves, actsOf_engineMoves]

theorem unlimited_answer (s : Session ε) (call : SessionCall ε) :
    s.unlimited.answer call = s.answer call := by
  cases call with
  | update source token now => simp only [answer, unlimited_update]
  | handle event now => simp only [answer, unlimited_handle]
  | tick | close | engineMoves => rfl

theorem Placed.unlimited_step (h : s.Placed) (call : SessionCall ε) :
    s.unlimited.step call = (s.step call).unlimited := by
  cases call with
  | update source token now => exact congrArg Prod.snd (s.unlimited_update source token now)
  | handle event now => exact congrArg Handled.session (s.unlimited_handle event now)
  | tick now => exact unlimited_tick (fun hb => (h.coherent.blocked hb).2.2.2) now
  | close => exact s.unlimited_close
  | engineMoves move => rfl

theorem Placed.unlimited_run (h : s.Placed) (calls : List (SessionCall ε)) :
    s.unlimited.run calls = (s.run calls).unlimited ∧
      s.unlimited.acts calls = s.acts calls ∧
      (s.unlimited.outcomes calls).map (·.answer) = (s.outcomes calls).map (·.answer) := by
  induction calls generalizing s with
  | nil => exact ⟨rfl, rfl, rfl⟩
  | cons call calls ih =>
    obtain ⟨hrun, hacts, hanswers⟩ := ih (h.step call)
    simp only [run_cons, acts, outcomes, List.map_cons, h.unlimited_step, hrun, hacts, hanswers,
      unlimited_actsOf, unlimited_answer, and_self]

/-- A limit on loads changes neither answers nor acts, and of what the session shows no more than that
its message may lie over a load that goes on. A load that finishes takes the message away. -/
theorem timeout_only_overlays (id : String) (engine : ε) (options : Document.Options)
    (timing : Timing) (calls : List (SessionCall ε)) :
    let limited := start id engine options timing
    let unlimited := start id engine options timing.unlimited
    (limited.outcomes calls).map (·.answer) = (unlimited.outcomes calls).map (·.answer) ∧
    limited.acts calls = unlimited.acts calls ∧
    Overlaid (limited.run calls) (unlimited.run calls) ∧
    ∀ generation now,
      let late := (limited.run calls).handle ⟨generation, .loaded⟩ now
      late.accepted = true → late.session =
        { ((unlimited.run calls).handle ⟨generation, .loaded⟩ now).session with timing } := by
  intro limited unlimited
  have hplaced : limited.Placed := placed_start id engine options timing
  obtain ⟨hrun, hacts, hanswers⟩ := hplaced.unlimited_run calls
  rw [unlimited_start] at hrun hacts hanswers
  refine ⟨hanswers.symm, hacts.symm, ?_, ?_⟩
  · rw [hrun]
    exact (hplaced.run calls).overlaid
  · intro generation now late haccepted
    have htiming : (limited.run calls).timing = timing :=
      congrArg (·.2.2) (run_settings limited calls)
    have hlate : late.session = (limited.run calls).finishLoad now := by
      rw [handle_accepted] at haccepted
      simp [late, handle, haccepted]
    rw [hrun, unlimited_handle]
    change late.session = { late.session.unlimited with timing }
    rw [hlate, ← htiming]
    exact finishLoad_eq _ now

end Session

end LivePreview
