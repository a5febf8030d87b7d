import LivePreview.Proofs.Session.Live

/-!
A session tears down what it knows to be live, and after a refused load it takes nothing to be live.
-/

namespace LivePreview

namespace EngineAct

def recorded? : EngineAct → Option EngineCall
  | .loaded generation document => some (.load generation document)
  | .refused _ _ _ => none
  | .tornDown => some .teardown

def isRefusal : EngineAct → Bool
  | .refused _ _ _ => true
  | _ => false

end EngineAct

/-- Each load on the record has been followed by a teardown. -/
def Released (ops : List EngineCall) : Prop :=
  ∀ before generation document after,
    ops = before ++ .load generation document :: after → .teardown ∈ after

/-- A document was taken, and every load since has been refused, at least one. -/
def Stranded (acts : List EngineAct) : Prop :=
  ∃ before generation document refusals,
    acts = before ++ .loaded generation document :: refusals ∧ refusals ≠ [] ∧
      ∀ act ∈ refusals, act.isRefusal = true

theorem released_nil : Released [] := by
  intro before generation document after h
  simp at h

theorem released_append_teardown (ops : List EngineCall) : Released (ops ++ [.teardown]) := by
  intro before generation document after h
  rcases append_singleton_eq_cases h with ⟨-, -, hx⟩ | ⟨rest, rfl, -⟩
  · cases hx
  · simp

theorem not_released_append_load (ops : List EngineCall) (generation : Generation)
    (document : Document) : ¬ Released (ops ++ [.load generation document]) := by
  intro h
  simpa using h ops generation document [] rfl

theorem not_stranded_append {acts : List EngineAct} {act : EngineAct}
    (h : act.isRefusal = false) : ¬ Stranded (acts ++ [act]) := by
  rintro ⟨before, generation, document, refusals, heq, hne, hall⟩
  rcases append_singleton_eq_cases heq with ⟨hnil, -, -⟩ | ⟨rest, rfl, -⟩
  · exact hne hnil
  · simp [hall act (by simp)] at h

theorem not_stranded_of_endsLoaded {acts : List EngineAct} (h : EndsLoaded acts) :
    ¬ Stranded acts := by
  obtain ⟨before, generation, document, rfl⟩ := h
  exact not_stranded_append rfl

theorem stranded_append_refused_iff {acts : List EngineAct} (generation : Generation)
    (document : Document) (failure : GuestFailure) :
    Stranded (acts ++ [.refused generation document failure]) ↔
      EndsLoaded acts ∨ Stranded acts := by
  constructor
  · rintro ⟨before, g, d, refusals, heq, -, hall⟩
    rcases append_singleton_eq_cases heq with ⟨-, -, hx⟩ | ⟨rest, rfl, hacts⟩
    · cases hx
    · rcases List.eq_nil_or_concat rest with rfl | ⟨inner, last, rfl⟩
      · exact .inl ⟨before, g, d, hacts⟩
      · exact .inr ⟨before, g, d, _, hacts, by simp, fun act hact =>
          hall act (List.mem_append_left _ hact)⟩
  · rintro (⟨before, g, d, rfl⟩ | ⟨before, g, d, refusals, rfl, -, hall⟩)
    · exact ⟨before, g, d, [.refused generation document failure], by simp, by simp, by simp; rfl⟩
    · refine ⟨before, g, d, refusals ++ [.refused generation document failure], by simp,
        by simp, ?_⟩
      intro act hact
      rcases List.mem_append.1 hact with hact | hact
      · exact hall act hact
      · rw [List.mem_singleton.1 hact]
        rfl

theorem released_recorded_iff {acts : List EngineAct} (h : ¬ EndsLoaded acts) :
    Released (acts.filterMap EngineAct.recorded?) ↔ ¬ Stranded acts := by
  induction acts using List.reverseRecOn with
  | nil =>
      refine iff_of_true released_nil ?_
      rintro ⟨before, generation, document, refusals, heq, -, -⟩
      simp at heq
  | append_singleton acts act ih =>
      rw [List.filterMap_append]
      cases act with
      | loaded generation document => exact absurd ⟨acts, generation, document, rfl⟩ h
      | tornDown => exact iff_of_true (released_append_teardown _) (not_stranded_append rfl)
      | refused generation document failure =>
          rw [stranded_append_refused_iff]
          simp only [List.filterMap_cons, EngineAct.recorded?, List.filterMap_nil, List.append_nil]
          by_cases hl : EndsLoaded acts
          · obtain ⟨before, g, d, rfl⟩ := hl
            refine iff_of_false ?_ (fun hn => hn (.inl ⟨before, g, d, rfl⟩))
            rw [List.filterMap_append]
            exact not_released_append_load _ g d
          · rw [ih hl, or_iff_right hl]

namespace Session

variable {s t : Session TracedEngine}

theorem ops_teardown (host : Host TracedEngine) :
    host.teardown.engine.ops =
      host.engine.ops ++ host.teardownActs.filterMap EngineAct.recorded? := by
  cases h : host.live <;>
    simp [Host.teardown, Host.teardownActs, h, Engine.teardown, TracedEngine.teardown,
      EngineAct.recorded?]

theorem ops_reload (h : t.host.closed = false) (document : Document) (now : Nat) :
    (t.reload document now).2.host.engine.ops =
      t.host.engine.ops ++ (t.host.loadActs document).filterMap EngineAct.recorded? := by
  cases hr : t.host.engine.refusal <;>
    simp [reload, Host.load, h, Host.loadActs, Engine.load, TracedEngine.load, hr, fail,
      EngineAct.recorded?]

theorem ops_of_reloads {source : Source} {token : UInt64} (h : Reloads s source token t) :
    t.host.engine.ops = s.host.engine.ops ++
      (if s.source = some source then s.host.teardownActs else []).filterMap
        EngineAct.recorded? := by
  cases h with
  | refresh hu ht =>
      rw [if_pos hu]
      exact ops_teardown s.host
  | change hu => simp [hu, see]

/-- A scripted engine may be told to refuse, which does not touch its record. -/
def Scripted (calls : List (SessionCall TracedEngine)) : Prop :=
  ∀ move, .engineMoves move ∈ calls → ∀ engine, (move engine).ops = engine.ops

theorem ops_step {call : SessionCall TracedEngine} (h : Scripted [call]) :
    (s.step call).host.engine.ops =
      s.host.engine.ops ++ (s.actsOf call).filterMap EngineAct.recorded? := by
  cases call with
  | update source token now =>
      change (s.update source token now).2.host.engine.ops = _
      rcases s.update_cases source token now with
        ⟨hc, hu⟩ | ⟨hc, hs, hu⟩ | ⟨hc, hs, he, ht, hu⟩ | ⟨hc, hs, t, ht, hu⟩
      · simp [hu, actsOf_update, hc]
      · rw [hu, actsOf_update, hc, hs]
        exact ops_teardown s.host
      · simp [hu, actsOf_update, hc, hs, he, ht, see]
      · rw [hu, actsOf_of_reloads hc hs ht, List.filterMap_append, ← List.append_assoc,
          ← ops_of_reloads ht]
        exact ops_reload (by rw [ht.closed_eq, hc]) _ now
  | handle event now => simp [step, actsOf_handle, handle_host]
  | tick now => simp [step, actsOf_tick, tick_host]
  | close =>
      rw [actsOf_close]
      cases hc : s.host.closed with
      | true => simp [step, close, hc]
      | false =>
          simp only [step, close, Host.close, hc, Bool.false_eq_true, if_false]
          exact ops_teardown s.host
  | engineMoves move =>
      rw [actsOf_engineMoves]
      simpa [step, withEngine] using h move (List.mem_singleton_self _) s.host.engine

theorem ops_run {calls : List (SessionCall TracedEngine)} (h : Scripted calls) :
    (s.run calls).host.engine.ops =
      s.host.engine.ops ++ (s.acts calls).filterMap EngineAct.recorded? := by
  induction calls generalizing s with
  | nil => simp [acts]
  | cons call calls ih =>
      have hcall : Scripted [call] := fun move hm =>
        h move (List.mem_cons.2 (.inl (List.mem_singleton.1 hm)))
      have hcalls : Scripted calls := fun move hm => h move (List.mem_cons_of_mem _ hm)
      rw [run_cons, ih hcalls, ops_step hcall]
      simp [acts]

/-- A session that rests on a fresh scripted engine, or remounts its program, has had its last
document torn down unless the engine is stranded with it. -/
theorem released_iff_not_stranded (id : String) (options : Document.Options) (timing : Timing)
    (calls : List (SessionCall TracedEngine)) (scripted : Scripted calls) :
    let s := (start id ({} : TracedEngine) options timing).run calls
    let acts := (start id ({} : TracedEngine) options timing).acts calls
    (s.phase = .idle ∨ s.host.closed = true → (Released s.host.engine.ops ↔ ¬ Stranded acts)) ∧
    (∀ source token now generation document, s.source = some source →
      .loaded generation document ∈ s.actsOf (.update source token now) →
      ∃ ops, (s.update source token now).2.host.engine.ops = ops ++ [.load generation document] ∧
        (Released ops ↔ ¬ Stranded acts)) := by
  intro s acts
  have hops : s.host.engine.ops = acts.filterMap EngineAct.recorded? := by
    rw [ops_run scripted]
    simp [start]
    rfl
  have hlive : s.host.live = true ↔ EndsLoaded acts := by
    simpa [LiveAfter] using (liveAfter_start id ({} : TracedEngine) options timing).run calls
  have hrests : s.Rests := (rests_start id _ options timing).run calls
  constructor
  · intro h
    have hp : s.phase = .idle := h.elim (fun hp => hp) hrests.idle_of_closed
    rw [hops]
    refine released_recorded_iff fun he => ?_
    simp [hrests.dead_of_idle hp] at hlive
    exact hlive he
  · intro source token now generation document hsource hload
    obtain ⟨hc, -, t, ht, hu, hacts⟩ := reloads_of_loaded hload
    refine ⟨t.host.engine.ops, ?_, ?_⟩
    · rw [hu, ops_reload (by rw [ht.closed_eq, hc]), hacts]
      rfl
    · -- The acts are those of a rest: whatever was live is torn down before the load.
      rw [ops_of_reloads ht, if_pos hsource, hops, ← List.filterMap_append,
        released_recorded_iff (LiveAfter.teardown hlive), not_iff_not]
      cases hl : s.host.live with
      | true =>
          simp only [Host.teardownActs, hl, if_true]
          exact iff_of_false (not_stranded_append rfl) (not_stranded_of_endsLoaded (hlive.1 hl))
      | false => simp [Host.teardownActs, hl]

def refusedEdit (next : String) : List (SessionCall TracedEngine) :=
  [.update sampleSource 0 0, .engineMoves (·.refuseNext "no room"),
    .update ⟨"doc", "const App = 2;"⟩ 0 1, .update ⟨"doc", next⟩ 0 2, .close]

theorem scripted_refusedEdit (next : String) : Scripted (refusedEdit next) := by
  intro move hm engine
  simp only [refusedEdit, List.mem_cons, List.not_mem_nil, reduceCtorEq, false_or, or_false,
    SessionCall.engineMoves.injEq] at hm
  rw [hm]
  rfl

theorem released_after_refusedEdit :
    let calls := refusedEdit "const App = 3;"
    Scripted calls ∧ (sample.run calls).host.closed = true ∧ ¬ Stranded (sample.acts calls) ∧
      Released (sample.run calls).host.engine.ops := by
  have hclosed : (sample.run (refusedEdit "const App = 3;")).host.closed = true := by rfl
  have hacts : sample.acts (refusedEdit "const App = 3;") =
      (sample.acts (refusedEdit "const App = 3;")).take 3 ++ [.tornDown] := by rfl
  have hstranded : ¬ Stranded (sample.acts (refusedEdit "const App = 3;")) := by
    rw [hacts]
    exact not_stranded_append rfl
  have hscripted := scripted_refusedEdit "const App = 3;"
  have h := (released_iff_not_stranded "main" {} {} _ hscripted).1 (.inr hclosed)
  exact ⟨hscripted, hclosed, hstranded, h.2 hstranded⟩

theorem not_released_after_refusedEdit :
    (sample.run (refusedEdit "")).phase = .idle ∧
      ¬ Released (sample.run (refusedEdit "")).host.engine.ops := by
  have hops : (sample.run (refusedEdit "")).host.engine.ops =
      [] ++ [.load 1 (.ofSource sampleSource.text {})] := by rfl
  refine ⟨by rfl, ?_⟩
  rw [hops]
  exact not_released_append_load [] 1 _

end Session

end LivePreview
