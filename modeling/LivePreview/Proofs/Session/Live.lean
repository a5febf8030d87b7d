import Mathlib.Data.List.Induction
import LivePreview.Proofs.Session.Update

/-!
When a session takes a document to be live: exactly when the last thing its engine did was to take
a load. An idle session has no live document, and a closed session is idle.
-/

namespace LivePreview

theorem append_singleton_eq_cases {α : Type} {xs before after : List α} {x y : α}
    (h : xs ++ [x] = before ++ y :: after) :
    (after = [] ∧ xs = before ∧ x = y) ∨
      ∃ rest, after = rest ++ [x] ∧ xs = before ++ y :: rest := by
  rcases List.eq_nil_or_concat after with rfl | ⟨rest, z, rfl⟩
  · obtain ⟨hxs, hx⟩ := List.append_inj' h rfl
    exact .inl ⟨rfl, hxs, List.singleton_inj.1 hx⟩
  · rw [List.concat_eq_append, ← List.cons_append, ← List.append_assoc] at h
    obtain ⟨hxs, hx⟩ := List.append_inj' h rfl
    exact .inr ⟨rest, by rw [List.concat_eq_append, List.singleton_inj.1 hx], hxs⟩

def EndsLoaded (acts : List EngineAct) : Prop :=
  ∃ before generation document, acts = before ++ [.loaded generation document]

theorem endsLoaded_append_loaded (acts : List EngineAct) (generation : Generation)
    (document : Document) : EndsLoaded (acts ++ [.loaded generation document]) :=
  ⟨acts, generation, document, rfl⟩

theorem not_endsLoaded_append_refused (acts : List EngineAct) (generation : Generation)
    (document : Document) (failure : GuestFailure) :
    ¬ EndsLoaded (acts ++ [.refused generation document failure]) := by
  rintro ⟨before, g, d, h⟩
  rcases append_singleton_eq_cases h with ⟨-, -, hx⟩ | ⟨rest, h, -⟩
  · cases hx
  · simp at h

theorem not_endsLoaded_append_tornDown (acts : List EngineAct) :
    ¬ EndsLoaded (acts ++ [.tornDown]) := by
  rintro ⟨before, g, d, h⟩
  rcases append_singleton_eq_cases h with ⟨-, -, hx⟩ | ⟨rest, h, -⟩
  · cases hx
  · simp at h

namespace Session

variable {ε : Type}

def LiveAfter (acts : List EngineAct) (s : Session ε) : Prop :=
  s.host.live = true ↔ EndsLoaded acts

theorem liveAfter_start (id : String) (engine : ε) (options : Document.Options) (timing : Timing) :
    (start id engine options timing).LiveAfter [] := by
  refine iff_of_false (by simp [start]) ?_
  rintro ⟨before, generation, document, h⟩
  simp at h

theorem LiveAfter.teardown {acts : List EngineAct} {s : Session ε} (h : s.LiveAfter acts) :
    ¬ EndsLoaded (acts ++ s.host.teardownActs) := by
  unfold Host.teardownActs
  split
  · exact not_endsLoaded_append_tornDown acts
  · rename_i hl
    rw [List.append_nil]
    exact fun he => hl (h.2 he)

structure Rests (s : Session ε) : Prop where
  dead_of_idle : s.phase = .idle → s.host.live = false
  idle_of_closed : s.host.closed = true → s.phase = .idle

theorem Rests.handle {s : Session ε} (h : s.Rests) (event : GuestReport) (now : Nat) :
    (s.handle event now).session.Rests := by
  constructor
  · intro hp
    rw [handle_host]
    exact h.dead_of_idle (idle_of_handle hp)
  · intro hc
    rw [handle_host] at hc
    have ha : s.host.accepts event.generation = false := by simp [Host.accepts, hc]
    rw [handle_of_not_accepts ha]
    exact h.idle_of_closed hc

theorem rests_start (id : String) (engine : ε) (options : Document.Options) (timing : Timing) :
    (start id engine options timing).Rests :=
  ⟨fun _ => rfl, nofun⟩

variable [Engine ε]

theorem LiveAfter.reload {acts : List EngineAct} {t : Session ε} (h : t.host.closed = false)
    (document : Document) (now : Nat) :
    (t.reload document now).2.LiveAfter (acts ++ t.host.loadActs document) := by
  rcases reload_cases h document now with ⟨engine, he, hr⟩ | ⟨failure, engine, he, hr⟩
  · rw [hr]
    simp only [Host.loadActs, he]
    exact iff_of_true rfl (endsLoaded_append_loaded acts _ _)
  · rw [hr]
    simp only [Host.loadActs, he]
    exact iff_of_false (by simp [fail, loading, Host.afterLoad])
      (not_endsLoaded_append_refused acts _ _ _)

theorem LiveAfter.step {acts : List EngineAct} {s : Session ε} (h : s.LiveAfter acts)
    (call : SessionCall ε) : (s.step call).LiveAfter (acts ++ s.actsOf call) := by
  cases call with
  | update source token now =>
      change (s.update source token now).2.LiveAfter _
      rcases s.update_cases source token now with
        ⟨hc, hu⟩ | ⟨hc, hs, hu⟩ | ⟨hc, hs, he, ht, hu⟩ | ⟨hc, hs, t, ht, hu⟩
      · simpa [hu, actsOf_update, hc] using h
      · rw [hu, actsOf_update, hc, hs]
        exact iff_of_false (by simp [emptied, Host.teardown]) h.teardown
      · rw [hu]
        simp only [actsOf_update, hc, hs, he, ht, Bool.false_eq_true, if_false, if_true,
          List.append_nil]
        exact h
      · rw [hu, actsOf_of_reloads hc hs ht, ← List.append_assoc]
        exact LiveAfter.reload (by rw [ht.closed_eq, hc]) _ now
  | handle event now =>
      rw [actsOf_handle, List.append_nil]
      simpa [LiveAfter, Session.step, handle_host] using h
  | tick now =>
      rw [actsOf_tick, List.append_nil]
      simpa [LiveAfter, Session.step, tick_host] using h
  | close =>
      rw [actsOf_close]
      cases hc : s.host.closed with
      | true => simpa [Session.step, close, hc] using h
      | false =>
          refine iff_of_false ?_ h.teardown
          simp [Session.step, close, Host.close, Host.teardown, hc]
  | engineMoves move =>
      rw [actsOf_engineMoves, List.append_nil]
      exact h

theorem LiveAfter.run {acts : List EngineAct} {s : Session ε} (h : s.LiveAfter acts)
    (calls : List (SessionCall ε)) : (s.run calls).LiveAfter (acts ++ s.acts calls) := by
  induction calls generalizing acts s with
  | nil => simpa [Session.acts] using h
  | cons call calls ih => simpa [Session.acts, List.append_assoc] using ih (h.step call)

theorem Rests.step {s : Session ε} (h : s.Rests) (call : SessionCall ε) : (s.step call).Rests := by
  cases call with
  | update source token now =>
      change (s.update source token now).2.Rests
      rcases s.update_cases source token now with
        ⟨hc, hu⟩ | ⟨hc, hs, hu⟩ | ⟨hc, hs, he, ht, hu⟩ | ⟨hc, hs, t, ht, hu⟩
      · rw [hu]
        exact h
      · rw [hu]
        exact ⟨fun _ => rfl, fun _ => rfl⟩
      · rw [hu]
        exact ⟨h.dead_of_idle, h.idle_of_closed⟩
      · have htc : t.host.closed = false := by rw [ht.closed_eq, hc]
        rw [hu]
        rcases reload_cases htc (.ofSource source.text s.options) now with
          ⟨engine, -, hr⟩ | ⟨failure, engine, -, hr⟩
        all_goals
          rw [hr]
          refine ⟨fun hidle => ?_, fun hclosed => ?_⟩
          · cases hidle
          · simp [fail, loading, Host.afterLoad, htc] at hclosed
  | handle event now => exact h.handle event now
  | tick now =>
      change (s.tick now).Rests
      constructor
      · rw [tick_phase, tick_host]
        exact h.dead_of_idle
      · rw [tick_phase, tick_host]
        exact h.idle_of_closed
  | close =>
      cases hc : s.host.closed with
      | true => simpa [Session.step, close, hc] using h
      | false =>
          simp only [Session.step, close, hc, Bool.false_eq_true, if_false]
          exact ⟨fun _ => by simp [Host.close, hc, Host.teardown], fun _ => rfl⟩
  | engineMoves move => exact ⟨h.dead_of_idle, h.idle_of_closed⟩

theorem Rests.run {s : Session ε} (h : s.Rests) (calls : List (SessionCall ε)) :
    (s.run calls).Rests := by
  induction calls generalizing s with
  | nil => exact h
  | cons call calls ih => exact ih (h.step call)

end Session

end LivePreview
