import LivePreview.Proofs.Session.Edits
import LivePreview.Proofs.Session.Generation

/-!
A document is superseded by the next load that is attempted, by an empty source, by the teardown of
a refresh and by closing.
-/

namespace LivePreview

inductive CallAnswer where
  | updated (result : Except GuestFailure Unit)
  | handled (accepted : Bool) (entry : Option LogRecord)
  | done

structure CallOutcome (ε : Type) where
  call : SessionCall ε
  answer : CallAnswer
  acts : List EngineAct
  after : Session ε

namespace Session

variable {ε : Type} [Engine ε] {s : Session ε}

def answer (s : Session ε) : SessionCall ε → CallAnswer
  | .update source token now => .updated (s.update source token now).1
  | .handle event now => .handled (s.handle event now).accepted (s.handle event now).entry
  | _ => .done

def outcomes : Session ε → List (SessionCall ε) → List (CallOutcome ε)
  | _, [] => []
  | s, call :: calls =>
      ⟨call, s.answer call, s.actsOf call, s.step call⟩ :: outcomes (s.step call) calls

def supersedes (s : Session ε) : SessionCall ε → Bool
  | .update source token now =>
      source.isEmpty || !(s.actsOf (.update source token now)).isEmpty
  | .close => true
  | _ => false

/-- A load was attempted under `generation` before some call, and that call superseded it. -/
def Superseded (s : Session ε) (calls : List (SessionCall ε)) (generation : Generation) : Prop :=
  ∃ place : Fin calls.length, generation ∈ s.attempts (calls.take place) ∧
    (s.run (calls.take place)).supersedes calls[place] = true

instance (s : Session ε) (calls : List (SessionCall ε)) (generation : Generation) :
    Decidable (s.Superseded calls generation) :=
  inferInstanceAs (Decidable (∃ place : Fin calls.length,
    generation ∈ s.attempts (calls.take place) ∧
      (s.run (calls.take place)).supersedes calls[place] = true))

def isLate (s : Session ε) (before : List (SessionCall ε)) : SessionCall ε → Bool
  | .handle event _ => decide (s.Superseded before event.generation)
  | _ => false

/-- What is listed at the places of those calls, coming after `before`, that are not late. -/
def timely {α : Type} (s : Session ε) :
    List (SessionCall ε) → List (SessionCall ε) → List α → List α
  | before, call :: calls, x :: xs =>
      if s.isLate before call then s.timely (before ++ [call]) calls xs
      else x :: s.timely (before ++ [call]) calls xs
  | _, _, _ => []

theorem closed_run (h : s.host.closed = true) (calls : List (SessionCall ε)) :
    (s.run calls).host.closed = true := by
  induction calls generalizing s with
  | nil => exact h
  | cons call calls ih => exact ih (closed_step h call).2

theorem advance_of_supersedes {call : SessionCall ε} (h : s.supersedes call = true) :
    (s.step call).host.closed = true ∨ 0 < s.advance call := by
  cases call with
  | update source token now =>
    cases hc : s.host.closed with
    | true => exact .inl (closed_step hc _).2
    | false =>
      right
      rcases s.update_cases source token now with
        ⟨hn, -⟩ | ⟨-, hs, -⟩ | ⟨-, hs, he, ht, -⟩ | ⟨-, hs, t, ht, -⟩
      · rw [hc] at hn
        cases hn
      · simp [advance, hc, hs]
      · simp [supersedes, actsOf_update, hc, hs, he, ht] at h
      · rw [ht.advance_eq hc hs]
        split <;> omega
  | close =>
    cases hc : s.host.closed with
    | true => exact .inl (closed_step hc _).2
    | false => exact .inr (by simp [advance, hc])
  | handle event now => cases h
  | tick now => cases h
  | engineMoves move => cases h

theorem Superseded.cut {calls : List (SessionCall ε)} {generation : Generation}
    (h : s.Superseded calls generation) :
    ∃ before call after, calls = before ++ call :: after ∧ generation ∈ s.attempts before ∧
      (s.run before).supersedes call = true := by
  obtain ⟨⟨place, hplace⟩, hmem, hsupersedes⟩ := h
  refine ⟨calls.take place, calls[place], calls.drop (place + 1), ?_, hmem, hsupersedes⟩
  rw [List.getElem_cons_drop, List.take_append_drop]

theorem not_accepts_of_superseded {calls : List (SessionCall ε)} {generation : Generation}
    (few : s.generation.toNat + s.advances calls < UInt64.size)
    (h : s.Superseded calls generation) :
    (s.run calls).host.accepts generation = false := by
  obtain ⟨before, call, after, rfl, hmem, hsupersedes⟩ := h.cut
  rw [advances_append, advances] at few
  have hbefore := run_generation (s := s) before (by omega)
  have hattempt := (mem_attempts (by omega) hmem).2
  have hstep := step_generation (s := s.run before) call (by omega)
  have hafter := run_generation (s := (s.run before).step call) after (by omega)
  rw [run_append, run_cons]
  rcases advance_of_supersedes hsupersedes with hclosed | hpos
  · simp [Host.accepts, closed_run hclosed after]
  · have hne : generation ≠ (((s.run before).step call).run after).generation := by
      rintro rfl
      rw [UInt64.le_iff_toNat_le] at hattempt
      omega
    simpa [Host.accepts, Session.generation] using fun _ _ => hne

theorem handle_of_superseded {calls : List (SessionCall ε)} {event : GuestReport}
    (few : s.generation.toNat + s.advances calls < UInt64.size)
    (h : s.Superseded calls event.generation) (now : Nat) :
    (s.run calls).handle event now = ⟨false, s.run calls, none⟩ :=
  handle_of_not_accepts (not_accepts_of_superseded few h) now

theorem step_of_isLate {before : List (SessionCall ε)} {call : SessionCall ε}
    (few : s.generation.toNat + s.advances before < UInt64.size)
    (h : s.isLate before call = true) : (s.run before).step call = s.run before := by
  cases call with
  | handle event now =>
    exact congrArg Handled.session (handle_of_superseded few (of_decide_eq_true h) now)
  | update | tick | close | engineMoves => cases h

theorem run_append_singleton (s : Session ε) (before : List (SessionCall ε))
    (call : SessionCall ε) : s.run (before ++ [call]) = (s.run before).step call :=
  run_append s before [call]

theorem run_timely (before calls : List (SessionCall ε))
    (few : s.generation.toNat + s.advances (before ++ calls) < UInt64.size) :
    (s.run before).run (s.timely before calls calls) = s.run (before ++ calls) ∧
      (s.run before).outcomes (s.timely before calls calls) =
        s.timely before calls ((s.run before).outcomes calls) := by
  induction calls generalizing before with
  | nil => exact ⟨by simp [timely], rfl⟩
  | cons call calls ih =>
    have hcons : before ++ call :: calls = before ++ [call] ++ calls := by simp
    rw [hcons] at few ⊢
    obtain ⟨hrun, houtcomes⟩ := ih _ few
    rw [advances_append, advances_append] at few
    rw [run_append_singleton] at hrun houtcomes
    simp only [timely, outcomes]
    cases hlate : s.isLate before call with
    | true =>
      rw [step_of_isLate (by omega) hlate] at hrun houtcomes ⊢
      exact ⟨hrun, houtcomes⟩
    | false => exact ⟨hrun, congrArg _ houtcomes⟩

/-- Loads are attempted under ever greater generations. A signal of a superseded document is refused
and leaves the session as it was, and a run without all such signals goes as it did with them. -/
theorem superseded_silenced (id : String) (engine : ε) (options : Document.Options)
    (timing : Timing) (calls : List (SessionCall ε))
    (few : (start id engine options timing).advances calls < UInt64.size) :
    let s := start id engine options timing
    (s.attempts calls).Pairwise (· < ·) ∧
    (∀ event now, s.Superseded calls event.generation →
      (s.run calls).handle event now = ⟨false, s.run calls, none⟩) ∧
    s.run (s.timely [] calls calls) = s.run calls ∧
    s.outcomes (s.timely [] calls calls) = s.timely [] calls (s.outcomes calls) := by
  intro s
  have hfew : s.generation.toNat + s.advances calls < UInt64.size := by
    have hzero : s.generation.toNat = 0 := rfl
    rw [hzero, Nat.zero_add]
    exact few
  obtain ⟨hrun, houtcomes⟩ := run_timely [] _ hfew
  refine ⟨pairwise_attempts hfew, ?_, hrun, houtcomes⟩
  intro event now h
  exact handle_of_superseded hfew h now

def refusedBetween : List (SessionCall TracedEngine) :=
  [.update sampleSource 0 0, .engineMoves (·.refuseNext "no room"),
    .update ⟨"doc", "const App = 2;"⟩ 0 1, .handle ⟨1, .mountFailed "late"⟩ 2,
    .update sampleSource 0 3, .handle ⟨3, .loaded⟩ 4]

theorem silenced_in_refusedBetween :
    let late : GuestReport := ⟨1, .loadFailed "later"⟩
    sample.advances refusedBetween < UInt64.size ∧
      sample.attempts refusedBetween = [1, 2, 3] ∧
      sample.Superseded refusedBetween late.generation ∧
      (sample.run refusedBetween).handle late 5 = ⟨false, sample.run refusedBetween, none⟩ ∧
      sample.timely [] refusedBetween refusedBetween = refusedBetween.eraseIdx 3 ∧
      sample.run (refusedBetween.eraseIdx 3) = sample.run refusedBetween := by
  intro late
  have hadvances : sample.advances refusedBetween = 3 := by rfl
  have hfew : sample.advances refusedBetween < UInt64.size := by
    rw [hadvances]
    decide
  have hsuperseded : sample.Superseded refusedBetween late.generation :=
    ⟨⟨2, by decide⟩, List.mem_singleton.2 (by rfl), by rfl⟩
  have htimely : sample.timely [] refusedBetween refusedBetween = refusedBetween.eraseIdx 3 := by
    rfl
  obtain ⟨-, hhandle, hrun, -⟩ := superseded_silenced "main" ({} : TracedEngine) {} {} _ hfew
  refine ⟨hfew, by rfl, hsuperseded, hhandle late 5 hsuperseded, htimely, ?_⟩
  rw [← htimely]
  exact hrun

end Session

end LivePreview
