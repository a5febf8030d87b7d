import LivePreview.Proofs.Session.Update

/-!
What an engine is asked to do is settled by the edits alone: a machine that sees only the updates
and the closing of a session asks for the same acts in the same order.
-/

namespace LivePreview

inductive Edit where
  | update (source : Source) (token : UInt64)
  | close

def SessionCall.edit? {ε : Type} : SessionCall ε → Option Edit
  | .update source token _ => some (.update source token)
  | .close => some .close
  | _ => none

def Taken (acts : List EngineAct) : Prop :=
  ∀ generation document failure, .refused generation document failure ∉ acts

theorem taken_append_iff {before after : List EngineAct} :
    Taken (before ++ after) ↔ Taken before ∧ Taken after := by
  constructor
  · intro h
    exact ⟨fun g d f hm => h g d f (List.mem_append_left _ hm),
      fun g d f hm => h g d f (List.mem_append_right _ hm)⟩
  · rintro ⟨hb, ha⟩ g d f hm
    rcases List.mem_append.1 hm with hm | hm
    · exact hb g d f hm
    · exact ha g d f hm

namespace Session

variable {ε : Type} [Engine ε] {s : Session ε}

theorem closed_step (h : s.host.closed = true) (call : SessionCall ε) :
    s.actsOf call = [] ∧ (s.step call).host.closed = true := by
  cases call with
  | update source token now =>
    change _ ∧ (s.update source token now).2.host.closed = true
    rw [actsOf_update, update_of_closed h, if_pos h]
    exact ⟨rfl, h⟩
  | handle event now =>
    change _ ∧ (s.handle event now).session.host.closed = true
    rw [handle_host]
    exact ⟨s.actsOf_handle event now, h⟩
  | tick now =>
    change _ ∧ (s.tick now).host.closed = true
    rw [tick_host]
    exact ⟨s.actsOf_tick now, h⟩
  | close =>
    change _ ∧ s.close.host.closed = true
    rw [actsOf_close, close, if_pos h, if_pos h]
    exact ⟨rfl, h⟩
  | engineMoves move => exact ⟨s.actsOf_engineMoves move, h⟩

theorem closed_close (s : Session ε) : s.close.host.closed = true := by
  cases hc : s.host.closed <;> simp [close, Host.close, hc]

theorem acts_of_closed (h : s.host.closed = true) (calls : List (SessionCall ε)) :
    s.acts calls = [] := by
  induction calls generalizing s with
  | nil => rfl
  | cons call calls ih =>
    obtain ⟨hacts, hclosed⟩ := closed_step h call
    rw [acts, hacts, ih hclosed]
    rfl

end Session

structure EditMachine where
  source : Option Source := none
  greatest : Option UInt64 := none
  counter : Generation := 0

namespace EditMachine

def see (m : EditMachine) (token : UInt64) : EditMachine :=
  { m with greatest := some (m.greatest.elim token (max · token)) }

def exceeds (m : EditMachine) (token : UInt64) : Bool :=
  m.greatest.any (· < token)

def clearing (m : EditMachine) : List EngineAct :=
  if m.source.isSome then [.tornDown] else []

def count (m : EditMachine) : EditMachine :=
  { m with counter := m.counter + 1 }

def mount (m : EditMachine) (options : Document.Options) (source : Source) :
    List EngineAct × EditMachine :=
  ([.loaded (m.counter + 1) (.ofSource source.text options)], { m.count with source := some source })

def update (m : EditMachine) (options : Document.Options) (source : Source) (token : UInt64) :
    List EngineAct × EditMachine :=
  if source.isEmpty then (m.clearing, { (m.see token).count with source := none })
  else if m.source ≠ some source then (m.see token).mount options source
  else if m.exceeds token then
    let (acts, next) := (m.see token).count.mount options source
    (.tornDown :: acts, next)
  else ([], m.see token)

def trace (options : Document.Options) : EditMachine → List Edit → List EngineAct
  | _, [] => []
  | m, .close :: _ => m.clearing
  | m, .update source token :: edits =>
      (m.update options source token).1 ++ trace options (m.update options source token).2 edits

variable {ε : Type} {options : Document.Options} {m : EditMachine} {s t : Session ε}

structure Mirrors (options : Document.Options) (m : EditMachine) (s : Session ε) : Prop where
  opened : s.host.closed = false
  options_eq : s.options = options
  source_eq : s.source = m.source
  token_eq : s.refreshToken = m.greatest
  counter_eq : s.host.generation = m.counter
  live_eq : s.host.live = m.source.isSome

theorem mirrors_start (id : String) (engine : ε) (options : Document.Options) (timing : Timing) :
    Mirrors options {} (Session.start id engine options timing) :=
  ⟨rfl, rfl, rfl, rfl, rfl, rfl⟩

theorem Mirrors.of_frame (h : Mirrors options m s) (hf : t.frame = s.frame) :
    Mirrors options m t := by
  obtain ⟨ho, hp, hs, ht, hc, hl⟩ := h
  simp only [Session.frame, Prod.mk.injEq] at hf
  obtain ⟨-, hoptions, -, hhost, hsource, htoken, -⟩ := hf
  exact ⟨hhost ▸ ho, hoptions ▸ hp, hsource ▸ hs, htoken ▸ ht, hhost ▸ hc, hhost ▸ hl⟩

theorem Mirrors.see (h : Mirrors options m s) (token : UInt64) :
    Mirrors options (m.see token) (s.see token) := by
  obtain ⟨ho, hp, hs, ht, hc, hl⟩ := h
  refine ⟨ho, hp, hs, ?_, hc, hl⟩
  rw [Session.see, EditMachine.see, ht]

theorem Mirrors.asksRefresh_eq (h : Mirrors options m s) (token : UInt64) :
    s.asksRefresh token = m.exceeds token := by
  rw [Session.asksRefresh, exceeds, h.token_eq]

theorem Mirrors.teardownActs_eq (h : Mirrors options m s) : s.host.teardownActs = m.clearing := by
  rw [Host.teardownActs, clearing, h.live_eq]

variable [Engine ε]

theorem mirrors_mount (m : EditMachine) (t : Session ε) (source : Source) (now : Nat)
    (ho : t.host.closed = false) (hp : t.options = options) (hs : t.source = some source)
    (ht : t.refreshToken = m.greatest) (hc : t.host.generation = m.counter)
    (taken : Taken (t.host.loadActs (.ofSource source.text options))) :
    t.host.loadActs (.ofSource source.text options) = (m.mount options source).1 ∧
      Mirrors options (m.mount options source).2
        (t.reload (.ofSource source.text options) now).2 := by
  rcases Session.reload_cases ho (.ofSource source.text options) now with
    ⟨engine, he, hr⟩ | ⟨failure, engine, he, -⟩
  · rw [hr, Host.loadActs, he, hc]
    refine ⟨rfl, ho, hp, hs, ht, ?_, rfl⟩
    simp [Session.loading, Host.afterLoad, EditMachine.mount, count, hc]
  · simp only [Host.loadActs, he] at taken
    exact absurd (List.mem_singleton_self _) (taken _ _ failure)

theorem Mirrors.update (h : Mirrors options m s) (source : Source) (token : UInt64) (now : Nat)
    (taken : Taken (s.actsOf (.update source token now))) :
    s.actsOf (.update source token now) = (m.update options source token).1 ∧
      Mirrors options (m.update options source token).2 (s.step (.update source token now)) := by
  have hsee := h.see token
  change _ ∧ Mirrors options _ (s.update source token now).2
  rcases s.update_cases source token now with
    ⟨hc, -⟩ | ⟨hc, hs, hu⟩ | ⟨hc, hs, he, ht, hu⟩ | ⟨hc, hs, t, ht, hu⟩
  · rw [h.opened] at hc
    cases hc
  · rw [hu, Session.actsOf_update, hc, hs, EditMachine.update, hs]
    refine ⟨h.teardownActs_eq, hc, hsee.options_eq, rfl, hsee.token_eq, ?_, rfl⟩
    simp [Session.emptied, Host.teardown, Session.see, count, EditMachine.see, h.counter_eq]
  · have hm : m.source = some source := by rw [← h.source_eq, he]
    have hx : m.exceeds token = false := by rw [← h.asksRefresh_eq, ht]
    have hacts : s.actsOf (.update source token now) = [] := by
      simp [Session.actsOf_update, hc, hs, he, ht]
    rw [hu, hacts]
    simp only [EditMachine.update, hs, hm, hx, ne_eq, not_true_eq_false, Bool.false_eq_true,
      if_false]
    exact ⟨trivial, hsee⟩
  · rw [hu]
    rw [Session.actsOf_of_reloads hc hs ht] at taken ⊢
    have hload := (taken_append_iff.1 taken).2
    cases ht with
    | refresh he ht =>
      have hm : m.source = some source := by rw [← h.source_eq, he]
      have hx : m.exceeds token = true := by rw [← h.asksRefresh_eq, ht]
      have hl : s.host.live = true := by rw [h.live_eq, hm]; rfl
      have hcount : (s.see token).tornDown.host.generation = (m.see token).count.counter := by
        simp [Session.tornDown, Host.teardown, Session.see, count, EditMachine.see, h.counter_eq]
      have hmount := mirrors_mount (m.see token).count (s.see token).tornDown source now hc
        hsee.options_eq he hsee.token_eq hcount (h.options_eq ▸ hload)
      rw [h.options_eq, if_pos he, hmount.1]
      simp only [EditMachine.update, hs, hm, hx, ne_eq, not_true_eq_false, Bool.false_eq_true,
        if_false, if_true, Host.teardownActs, hl]
      exact ⟨rfl, hmount.2⟩
    | change he =>
      have hm : m.source ≠ some source := by rwa [← h.source_eq]
      have hmount := mirrors_mount (m.see token) { s.see token with source := some source } source
        now hc hsee.options_eq rfl hsee.token_eq hsee.counter_eq (h.options_eq ▸ hload)
      rw [h.options_eq, if_neg he, hmount.1]
      simp only [EditMachine.update, hs, hm, ne_eq, not_false_eq_true, Bool.false_eq_true,
        if_false, if_true]
      exact ⟨rfl, hmount.2⟩

theorem Mirrors.step {call : SessionCall ε} (h : Mirrors options m s) (hedit : call.edit? = none) :
    s.actsOf call = [] ∧ Mirrors options m (s.step call) := by
  cases call with
  | update source token now => cases hedit
  | close => cases hedit
  | handle event now => exact ⟨s.actsOf_handle event now, h.of_frame (s.handle_frame event now)⟩
  | tick now => exact ⟨s.actsOf_tick now, h.of_frame (s.tick_frame now)⟩
  | engineMoves move =>
    obtain ⟨ho, hp, hs, ht, hc, hl⟩ := h
    exact ⟨s.actsOf_engineMoves move, ho, hp, hs, ht, hc, hl⟩

theorem Mirrors.acts_eq (h : Mirrors options m s) (calls : List (SessionCall ε))
    (taken : Taken (s.acts calls)) :
    s.acts calls = trace options m (calls.filterMap SessionCall.edit?) := by
  induction calls generalizing m s with
  | nil => rfl
  | cons call calls ih =>
    obtain ⟨hcall, hcalls⟩ := taken_append_iff.1 taken
    rw [Session.acts]
    cases hedit : call.edit? with
    | none =>
      obtain ⟨hacts, hnext⟩ := h.step hedit
      rw [hacts, ih hnext hcalls, List.filterMap_cons_none hedit]
      rfl
    | some edit =>
      rw [List.filterMap_cons_some hedit]
      cases call with
      | update source token now =>
        cases hedit
        obtain ⟨hacts, hnext⟩ := h.update source token now hcall
        rw [hacts, ih hnext hcalls]
        rfl
      | close =>
        cases hedit
        have hclosed : (s.step .close).host.closed = true := by
          simp [Session.step, Session.close, h.opened, Host.close]
        rw [Session.acts_of_closed hclosed, Session.actsOf_close, h.opened, List.append_nil]
        exact h.teardownActs_eq
      | handle | tick | engineMoves => cases hedit

/-- Signals, ticks, times and the moves of the engine itself have no part in what the engine is asked
to do. -/
theorem acts_eq_trace (id : String) (engine : ε) (options : Document.Options) (timing : Timing)
    (calls : List (SessionCall ε))
    (taken : Taken ((Session.start id engine options timing).acts calls)) :
    (Session.start id engine options timing).acts calls =
      trace options {} (calls.filterMap SessionCall.edit?) :=
  (mirrors_start id engine options timing).acts_eq calls taken

def editing : List (SessionCall TracedEngine) :=
  [.update Session.sampleSource 3 0, .handle ⟨1, .mountFailed ""⟩ 1, .tick 20000,
    .update Session.sampleSource 3 20001, .update ⟨"doc", " "⟩ 9 20002,
    .update Session.sampleSource 7 20003, .update Session.sampleSource 9 20004,
    .handle ⟨3, .loaded⟩ 20005, .update Session.sampleSource 10 20006, .close,
    .update Session.sampleSource 11 20007]

theorem acts_of_editing :
    Taken (Session.sample.acts editing) ∧
      Session.sample.acts editing =
        [.loaded 1 (.ofSource Session.sampleSource.text {}), .tornDown,
          .loaded 3 (.ofSource Session.sampleSource.text {}), .tornDown,
          .loaded 5 (.ofSource Session.sampleSource.text {}), .tornDown] := by
  have htrace : trace {} {} (editing.filterMap SessionCall.edit?) =
      [.loaded 1 (.ofSource Session.sampleSource.text {}), .tornDown,
        .loaded 3 (.ofSource Session.sampleSource.text {}), .tornDown,
        .loaded 5 (.ofSource Session.sampleSource.text {}), .tornDown] := by rfl
  have htaken : Taken (Session.sample.acts editing) := by
    have hacts : Session.sample.acts editing = trace {} {} (editing.filterMap SessionCall.edit?) := by
      rfl
    rw [hacts, htrace]
    intro generation document failure hmem
    simp at hmem
  refine ⟨htaken, ?_⟩
  rw [← htrace]
  exact acts_eq_trace "main" ({} : TracedEngine) {} {} editing htaken

end EditMachine

end LivePreview
