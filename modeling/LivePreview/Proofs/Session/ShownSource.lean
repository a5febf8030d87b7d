import LivePreview.Proofs.Session.Coherence
import LivePreview.Proofs.Session.Silence

namespace LivePreview

def Edit.closesOver : Option Source → List Edit → Bool
  | _, [] => false
  | source, .close :: _ => source.isSome
  | _, .update source _ :: edits => closesOver ((some source).filter (!·.isEmpty)) edits

namespace Session

variable {ε : Type} {s t : Session ε}

def Documented (s : Session ε) : Prop :=
  s.host.closed = false → s.document = s.source.map fun source => .ofSource source.text s.options

theorem Documented.of_frame (h : s.Documented) (hf : t.frame = s.frame) : t.Documented := by
  simp only [frame, Prod.mk.injEq] at hf
  obtain ⟨-, hoptions, -, hhost, hsource, -, hdocument⟩ := hf
  intro hopen
  rw [hdocument, hsource, hoptions]
  exact h (hhost ▸ hopen)

variable [Engine ε]

theorem documented_reload {source : Source} (h : s.source = some source)
    (hc : s.host.closed = false) (now : Nat) :
    (s.reload (.ofSource source.text s.options) now).2.Documented := by
  intro _
  rcases reload_cases hc (.ofSource source.text s.options) now with
    ⟨engine, -, hr⟩ | ⟨failure, engine, -, hr⟩
  · simp [hr, loading, h]
  · simp [hr, loading, fail, h]

theorem Documented.update (h : s.Documented) (source : Source) (token : UInt64) (now : Nat) :
    (s.update source token now).2.Documented := by
  rcases s.update_cases source token now with
    ⟨-, hu⟩ | ⟨-, -, hu⟩ | ⟨-, -, -, -, hu⟩ | ⟨hc, -, t, ht, hu⟩
  · rw [hu]
    exact h
  · rw [hu]
    exact fun _ => rfl
  · rw [hu]
    exact h
  · have htc : t.host.closed = false := by rw [ht.closed_eq, hc]
    rw [hu]
    cases ht with
    | refresh he _ => exact documented_reload (s := (s.see token).tornDown) he htc now
    | change _ =>
      exact documented_reload (s := { s.see token with source := some source }) rfl htc now

theorem Documented.step (h : s.Documented) (call : SessionCall ε) : (s.step call).Documented := by
  cases call with
  | update source token now => exact h.update source token now
  | handle event now => exact h.of_frame (s.handle_frame event now)
  | tick now => exact h.of_frame (s.tick_frame now)
  | close =>
    intro hopen
    have hclosed : s.close.host.closed = true := s.closed_close
    exact absurd (hclosed.symm.trans hopen) (by decide)
  | engineMoves move => exact h

theorem Documented.run (h : s.Documented) (calls : List (SessionCall ε)) :
    (s.run calls).Documented := by
  induction calls generalizing s with
  | nil => exact h
  | cons call calls ih => exact ih (h.step call)

theorem source_step_of_not_edit {call : SessionCall ε} (h : call.edit? = none) :
    (s.step call).source = s.source ∧ (s.step call).host.closed = s.host.closed := by
  cases call with
  | update source token now => cases h
  | handle event now =>
    exact ⟨congrArg (·.2.2.2.2.1) (s.handle_frame event now),
      congrArg Host.closed (s.handle_host event now)⟩
  | tick now =>
    exact ⟨congrArg (·.2.2.2.2.1) (s.tick_frame now), congrArg Host.closed (s.tick_host now)⟩
  | close => cases h
  | engineMoves move => exact ⟨rfl, rfl⟩

theorem source_step_of_closed (h : s.host.closed = true) (call : SessionCall ε) :
    (s.step call).source = s.source := by
  cases call with
  | update source token now => rw [step, update_of_closed h]
  | close => rw [step, close, if_pos h]
  | handle | tick | engineMoves => exact (source_step_of_not_edit rfl).1

theorem source_run_of_closed (h : s.host.closed = true) (calls : List (SessionCall ε)) :
    (s.run calls).source = s.source := by
  induction calls generalizing s with
  | nil => rfl
  | cons call calls ih => rw [run_cons, ih (closed_step h call).2, source_step_of_closed h]

theorem closed_over_iff (h : s.host.closed = false) (calls : List (SessionCall ε)) :
    ((s.run calls).host.closed = true ∧ (s.run calls).source.isSome = true) ↔
      Edit.closesOver s.source (calls.filterMap SessionCall.edit?) = true := by
  induction calls generalizing s with
  | nil => simp [h, Edit.closesOver]
  | cons call calls ih =>
    rw [run_cons]
    cases hedit : call.edit? with
    | none =>
      obtain ⟨hsource, hclosed⟩ := source_step_of_not_edit (s := s) hedit
      rw [ih (hclosed.trans h), hsource, List.filterMap_cons_none hedit]
    | some edit =>
      rw [List.filterMap_cons_some hedit]
      cases call with
      | update source token now =>
        cases hedit
        obtain ⟨hopen, hsource, -⟩ := update_open h source token now
        rw [step, ih hopen, hsource, Edit.closesOver]
      | close =>
        cases hedit
        have hsource : s.close.source = s.source := by simp [close, h, clear]
        rw [step, closed_run s.closed_close, source_run_of_closed s.closed_close, hsource]
        exact and_iff_right rfl
      | handle | tick | engineMoves => cases hedit

/-- The source of a session agrees with its phase and its document after any calls, whatever the
engine refuses, as long as it has not been closed over a program. -/
theorem source_agrees_iff (id : String) (engine : ε) (options : Document.Options) (timing : Timing)
    (calls : List (SessionCall ε)) :
    let s := (start id engine options timing).run calls
    ((s.source = none ↔ s.phase = .idle) ∧
      ∀ source, s.source = some source → s.document = some (.ofSource source.text options)) ↔
    Edit.closesOver none (calls.filterMap SessionCall.edit?) = false := by
  intro s
  have hcoherent : s.Coherent := ((placed_start id engine options timing).run calls).coherent
  have hdocumented : s.Documented :=
    Documented.run (s := start id engine options timing) (fun _ => rfl) calls
  have hoptions : s.options = options :=
    congrArg (·.2.1) (run_settings (start id engine options timing) calls)
  have hover : (s.host.closed = true ∧ s.source.isSome = true) ↔
      Edit.closesOver none (calls.filterMap SessionCall.edit?) = true :=
    closed_over_iff (s := start id engine options timing) rfl calls
  rw [← Bool.not_eq_true, ← hover]
  constructor
  · rintro ⟨hidle, -⟩ ⟨hclosed, hsome⟩
    have hnone : s.source = none := hidle.2 (hcoherent.closed hclosed)
    rw [hnone] at hsome
    cases hsome
  · intro hnot
    cases hclosed : s.host.closed with
    | true =>
      have hnone : s.source = none := by
        rw [← Option.not_isSome_iff_eq_none]
        exact fun hsome => hnot ⟨hclosed, hsome⟩
      refine ⟨iff_of_true hnone (hcoherent.closed hclosed), fun source hsource => ?_⟩
      rw [hnone] at hsource
      cases hsource
    | false =>
      have hdocument := hdocumented hclosed
      refine ⟨?_, fun source hsource => ?_⟩
      · rw [← hcoherent.document, hdocument, Option.map_eq_none_iff]
      · rw [hdocument, hsource, hoptions]
        rfl

theorem source_left_by_close :
    let s := sample.run [.update sampleSource 0 0, .close]
    s.phase = .idle ∧ s.document = none ∧ s.source = some sampleSource := by
  exact ⟨rfl, rfl, rfl⟩

end Session

end LivePreview
