import LivePreview.Proofs.Session.Live
import LivePreview.Proofs.Session.Silence

namespace LivePreview

def EngineAct.taken? : EngineAct → Option Generation
  | .loaded generation _ => some generation
  | .refused .. => none
  | .tornDown => none

def CallAnswer.logged : CallAnswer → Option LogRecord
  | .handled _ entry => entry
  | _ => none

namespace Host

variable {ε : Type}

theorem taken_teardownActs (host : Host ε) :
    host.teardownActs.filterMap EngineAct.taken? = [] := by
  unfold teardownActs
  split <;> rfl

end Host

namespace Session

variable {ε : Type}

theorem handle_bridge_session (s : Session ε) (generation : Generation) (channel : String)
    (payload : Json) (now : Nat) :
    (s.handle ⟨generation, .bridge channel payload⟩ now).session = s := by
  simp only [handle]
  split
  · split <;> rfl
  · rfl

variable [Engine ε] {s : Session ε}

def taken (s : Session ε) (call : SessionCall ε) : List Generation :=
  (s.actsOf call).filterMap EngineAct.taken?

/-- None of the calls attempts a load, tears the document down or closes the session. -/
def spares : Session ε → List (SessionCall ε) → Bool
  | _, [] => true
  | s, call :: calls => !s.supersedes call && spares (s.step call) calls

/-- The last load attempted in the calls was taken, under `generation`, and its document has been
spared since. -/
def Playing (s : Session ε) (calls : List (SessionCall ε)) (generation : Generation) : Prop :=
  ∃ place : Fin calls.length,
    generation ∈ (s.run (calls.take place)).taken (calls.get place) ∧
      (s.run (calls.take (place + 1))).spares (calls.drop (place + 1)) = true

instance (s : Session ε) (calls : List (SessionCall ε)) (generation : Generation) :
    Decidable (s.Playing calls generation) :=
  inferInstanceAs (Decidable (∃ place : Fin calls.length,
    generation ∈ (s.run (calls.take place)).taken (calls.get place) ∧
      (s.run (calls.take (place + 1))).spares (calls.drop (place + 1)) = true))

def message (s : Session ε) (before : List (SessionCall ε)) : SessionCall ε → Option LogRecord
  | .handle ⟨generation, .bridge channel payload⟩ _ =>
      if channel = "log" ∧ s.Playing before generation then
        some ⟨s.id, generation, logText payload⟩
      else none
  | _ => none

def messages (s : Session ε) (calls : List (SessionCall ε)) : List LogRecord :=
  (List.finRange calls.length).filterMap fun place : Fin calls.length =>
    s.message (calls.take place) (calls.get place)

def entries (s : Session ε) (calls : List (SessionCall ε)) : List LogRecord :=
  (s.outcomes calls).filterMap fun outcome => outcome.answer.logged

theorem spares_append (before after : List (SessionCall ε)) :
    s.spares (before ++ after) = (s.spares before && (s.run before).spares after) := by
  induction before generalizing s with
  | nil => simp [spares]
  | cons call before ih => simp [spares, ih, Bool.and_assoc]

theorem playing_iff_cut {calls : List (SessionCall ε)} {generation : Generation} :
    s.Playing calls generation ↔ ∃ before call after, calls = before ++ call :: after ∧
      generation ∈ (s.run before).taken call ∧
        ((s.run before).step call).spares after = true := by
  constructor
  · rintro ⟨⟨place, hplace⟩, htaken, hspared⟩
    refine ⟨calls.take place, calls[place], calls.drop (place + 1), ?_, htaken, ?_⟩
    · rw [List.getElem_cons_drop, List.take_append_drop]
    · rw [← run_append_singleton, List.take_append_getElem]
      exact hspared
  · rintro ⟨before, call, after, rfl, htaken, hspared⟩
    have htake : (before ++ call :: after).take (before.length + 1) = before ++ [call] := by
      simp [List.take_append, List.take_of_length_le]
    have hdrop : (before ++ call :: after).drop (before.length + 1) = after := by
      simp [List.drop_append]
    refine ⟨⟨before.length, by simp⟩, by simpa using htaken, ?_⟩
    rw [htake, hdrop, run_append_singleton]
    exact hspared

theorem not_playing_nil {generation : Generation} : ¬ s.Playing [] generation :=
  fun ⟨place, _⟩ => place.elim0

theorem playing_append_singleton {calls : List (SessionCall ε)} {call : SessionCall ε}
    {generation : Generation} :
    s.Playing (calls ++ [call]) generation ↔
      generation ∈ (s.run calls).taken call ∨
        s.Playing calls generation ∧ (s.run calls).supersedes call = false := by
  simp only [playing_iff_cut]
  constructor
  · rintro ⟨before, c, after, hcut, htaken, hspared⟩
    rcases append_singleton_eq_cases hcut with ⟨rfl, rfl, rfl⟩ | ⟨rest, rfl, rfl⟩
    · exact .inl htaken
    · rw [spares_append, Bool.and_eq_true] at hspared
      refine .inr ⟨⟨before, c, rest, rfl, htaken, hspared.1⟩, ?_⟩
      simpa [spares, run_append] using hspared.2
  · rintro (htaken | ⟨⟨before, c, after, rfl, htaken, hspared⟩, hkept⟩)
    · exact ⟨calls, call, [], rfl, htaken, rfl⟩
    · refine ⟨before, c, after ++ [call], by simp, htaken, ?_⟩
      rw [spares_append, hspared]
      simpa [spares, run_append] using hkept

theorem taken_of_reloads {t : Session ε} {source : Source} {token : UInt64}
    (hc : s.host.closed = false) (hs : source.isEmpty = false) (ht : Reloads s source token t)
    (now : Nat) :
    s.taken (.update source token now) =
      (t.host.loadActs (.ofSource source.text s.options)).filterMap EngineAct.taken? := by
  rw [taken, actsOf_of_reloads hc hs ht, List.filterMap_append]
  split
  · rw [Host.taken_teardownActs, List.nil_append]
  · rfl

theorem supersedes_of_reloads {t : Session ε} {source : Source} {token : UInt64}
    (hc : s.host.closed = false) (hs : source.isEmpty = false) (ht : Reloads s source token t)
    (now : Nat) : s.supersedes (.update source token now) = true := by
  simp [supersedes, actsOf_of_reloads hc hs ht, Host.loadActs_ne_nil]

theorem update_accepts_iff (s : Session ε) (source : Source) (token : UInt64) (now : Nat)
    (generation : Generation) :
    (s.update source token now).2.host.accepts generation = true ↔
      generation ∈ s.taken (.update source token now) ∨
        s.host.accepts generation = true ∧ s.supersedes (.update source token now) = false := by
  rcases s.update_cases source token now with
    ⟨hc, hu⟩ | ⟨hc, hs, hu⟩ | ⟨hc, hs, he, ht, hu⟩ | ⟨hc, hs, t, ht, hu⟩
  · simp [hu, Host.accepts, taken, actsOf_update, hc]
  · have htaken : s.taken (.update source token now) = [] := by
      rw [taken, actsOf_update, hc, hs]
      exact s.host.taken_teardownActs
    simp [hu, htaken, supersedes, hs, emptied, Host.accepts, Host.teardown]
  · have hacts : s.actsOf (.update source token now) = [] := by
      simp [actsOf_update, hc, hs, he, ht]
    rw [hu]
    simp [taken, supersedes, hacts, hs, see]
  · have htc : t.host.closed = false := by rw [ht.closed_eq, hc]
    rw [hu, taken_of_reloads hc hs ht, supersedes_of_reloads hc hs ht]
    rcases reload_cases htc (.ofSource source.text s.options) now with
      ⟨engine, he, hr⟩ | ⟨failure, engine, he, hr⟩
    · simp [hr, Host.loadActs, he, EngineAct.taken?, loading, Host.afterLoad, Host.accepts, htc]
    · simp [hr, Host.loadActs, he, EngineAct.taken?, fail, loading, Host.afterLoad, Host.accepts]

theorem step_accepts_iff (s : Session ε) (call : SessionCall ε) (generation : Generation) :
    (s.step call).host.accepts generation = true ↔
      generation ∈ s.taken call ∨
        s.host.accepts generation = true ∧ s.supersedes call = false := by
  cases call with
  | update source token now => exact s.update_accepts_iff source token now generation
  | handle event now => simp [step, handle_host, taken, actsOf_handle, supersedes]
  | tick now => simp [step, tick_host, taken, actsOf_tick, supersedes]
  | close =>
    have htaken : s.taken .close = [] := by
      rw [taken, actsOf_close]
      split
      · rfl
      · exact s.host.taken_teardownActs
    have hclosed : (s.step .close).host.closed = true := by
      simp only [step, close]
      split
      · assumption
      · simp [Host.close, *]
    simp [htaken, supersedes, Host.accepts, hclosed]
  | engineMoves move => simp [step, withEngine, Host.accepts, taken, actsOf_engineMoves, supersedes]

theorem accepts_iff_playing (dead : s.host.live = false) (calls : List (SessionCall ε))
    (generation : Generation) :
    (s.run calls).host.accepts generation = true ↔ s.Playing calls generation := by
  induction calls using List.reverseRecOn with
  | nil => exact iff_of_false (by simp [Host.accepts, dead]) not_playing_nil
  | append_singleton calls call ih =>
    rw [run_append_singleton, step_accepts_iff, playing_append_singleton, ih]

theorem id_run (s : Session ε) (calls : List (SessionCall ε)) : (s.run calls).id = s.id :=
  congrArg (·.1) (s.run_settings calls)

theorem entry_answer (dead : s.host.live = false) (before : List (SessionCall ε))
    (call : SessionCall ε) :
    ((s.run before).answer call).logged = s.message before call := by
  cases call with
  | handle event now =>
    obtain ⟨generation, signal⟩ := event
    have haccepts := accepts_iff_playing dead before generation
    cases signal with
    | bridge channel payload =>
      simp only [answer, CallAnswer.logged, message, handle, haccepts, id_run, LogRecord.channel]
      by_cases hchannel : channel = "log" <;> by_cases hplaying : s.Playing before generation <;>
        simp [hchannel, hplaying]
    | _ =>
      simp only [answer, CallAnswer.logged, message, handle]
      split <;> rfl
  | _ => rfl

theorem entries_after (dead : s.host.live = false) (before calls : List (SessionCall ε)) :
    (s.run before).entries calls =
      (List.finRange calls.length).filterMap fun place : Fin calls.length =>
        s.message (before ++ calls.take place) (calls.get place) := by
  induction calls generalizing before with
  | nil => rfl
  | cons call calls ih =>
    have hrest := ih (before ++ [call])
    rw [run_append_singleton] at hrest
    have hfirst : s.message (before ++ (call :: calls).take 0) call = s.message before call := by
      rw [List.take_zero, List.append_nil]
    have hlater (place : Fin calls.length) :
        s.message (before ++ [call] ++ calls.take place) (calls.get place) =
          s.message (before ++ (call :: calls).take place.succ)
            ((call :: calls).get place.succ) := by
      simp
    simp only [hlater] at hrest
    simp only [entries, outcomes, List.length_cons, List.finRange_succ, List.filterMap_cons,
      List.filterMap_map] at hrest ⊢
    rw [entry_answer dead before call, hrest, ← hfirst]
    rfl

/-- The entries of a run, in order and each once, are the messages on the log channel of the
document playing at the time. A message on any channel leaves the session as it was. -/
theorem entries_eq_messages (id : String) (engine : ε) (options : Document.Options)
    (timing : Timing) (calls : List (SessionCall ε)) :
    let s := start id engine options timing
    s.entries calls = s.messages calls ∧
      ∀ generation channel payload now,
        ((s.run calls).handle ⟨generation, .bridge channel payload⟩ now).session = s.run calls := by
  intro s
  refine ⟨entries_after rfl [] calls, ?_⟩
  intro generation channel payload now
  exact handle_bridge_session (s.run calls) generation channel payload now

-- The document of a refused load never plays, and the one before it has stopped.
example :
    sample.messages
      [.update sampleSource 0 0, .handle ⟨1, .bridge "log" (.str "one")⟩ 1,
        .engineMoves (·.refuseNext "no room"), .update ⟨"doc", "const App = 2;"⟩ 0 2,
        .handle ⟨1, .bridge "log" (.str "late")⟩ 3, .handle ⟨2, .bridge "log" (.str "two")⟩ 4,
        .update sampleSource 0 5, .handle ⟨3, .bridge "log" (.str "three")⟩ 6] =
      [⟨"main", 1, "one"⟩, ⟨"main", 3, "three"⟩] := by
  rfl

end Session

end LivePreview
