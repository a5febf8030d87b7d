import LivePreview.Proofs.Session.Update

namespace LivePreview

def Signal.isLoaded : Signal → Bool
  | .loaded => true
  | _ => false

def Signal.failure? : Signal → Option String
  | .loadFailed error => some (if error = "" then "Preview failed to load" else error)
  | .mountFailed error => some (if error = "" then "Mount failed" else error)
  | _ => none

def SessionCall.tick? {ε : Type} : SessionCall ε → Option Nat
  | .tick now => some now
  | _ => none

inductive Standing where
  | failed (text : String)
  | finished
  | overdue
  | waiting

namespace Standing

def ofFindings : Option String → Bool → Bool → Standing
  | some text, _, _ => .failed text
  | none, true, _ => .finished
  | none, false, true => .overdue
  | none, false, false => .waiting

def phase : Standing → Phase
  | .finished => .ready
  | _ => .loading

def error (timing : Timing) : Standing → Option String
  | .failed text => some text
  | .overdue => some (Session.timeoutMessage timing)
  | _ => none

def blocked : Standing → Bool
  | .failed _ => true
  | _ => false

def loadDue (timing : Timing) (loadedAt : Nat) : Standing → Option Nat
  | .waiting => timing.loadLimit.map (loadedAt + ·)
  | _ => none

def hear (signal : Signal) : Standing → Standing
  | .failed text => .failed (signal.failure?.getD text)
  | standing =>
      match signal.failure? with
      | some text => .failed text
      | none => if signal.isLoaded then .finished else standing

def pass (late : Bool) : Standing → Standing
  | .waiting => if late then .overdue else .waiting
  | standing => standing

theorem ofFindings_hear (signal : Signal) (failure : Option String) (finished overdue : Bool) :
    ofFindings (signal.failure?.or failure) (finished || signal.isLoaded) overdue =
      (ofFindings failure finished overdue).hear signal := by
  cases signal <;> cases failure <;> cases finished <;> cases overdue <;> rfl

theorem ofFindings_pass (late : Bool) (failure : Option String) (finished overdue : Bool) :
    ofFindings failure finished (overdue || late) =
      (ofFindings failure finished overdue).pass late := by
  cases failure <;> cases finished <;> cases overdue <;> cases late <;> rfl

variable {ε : Type}

structure Shows (standing : Standing) (loadedAt : Nat) (s : Session ε) : Prop where
  phase_eq : s.phase = standing.phase
  error_eq : s.error = standing.error s.timing
  blocked_eq : s.blocked = standing.blocked
  loadDue_eq : s.loadDue = standing.loadDue s.timing loadedAt

theorem shows_loading (s : Session ε) (host : Host ε) (document : Document) (now : Nat) :
    Shows .waiting now (s.loading host document now) :=
  ⟨rfl, rfl, rfl, rfl⟩

theorem shows_fail (s : Session ε) (text : String) (loadedAt : Nat) :
    Shows (.failed text) loadedAt (s.fail text) :=
  ⟨rfl, rfl, rfl, rfl⟩

theorem Shows.finishLoad {standing : Standing} {loadedAt : Nat} {s : Session ε}
    (h : standing.Shows loadedAt s) (now : Nat) :
    (standing.hear .loaded).Shows loadedAt (s.finishLoad now) := by
  obtain ⟨hp, he, hb, hd⟩ := h
  cases standing with
  | failed text =>
      have hs : s.blocked = true := hb
      simp only [Session.finishLoad, hs, if_true]
      exact ⟨hp, he, rfl, rfl⟩
  | finished | overdue | waiting =>
      have hs : s.blocked = false := hb
      simp only [Session.finishLoad, hs, Bool.false_eq_true, if_false]
      exact ⟨rfl, rfl, rfl, rfl⟩

theorem orDefault_eq (message text : String) :
    Session.orDefault message text = if message = "" then text else message := by
  simp [Session.orDefault, String.isEmpty_iff]

theorem Shows.handle {standing : Standing} {loadedAt : Nat} {s : Session ε}
    (h : standing.Shows loadedAt s) {event : GuestReport}
    (ha : s.host.accepts event.generation = true) (now : Nat) :
    (standing.hear event.signal).Shows loadedAt (s.handle event now).session := by
  have hfail : ∀ signal text, Signal.failure? signal = some text →
      standing.hear signal = .failed text := by
    intro signal text ht
    cases standing <;> simp [hear, ht]
  obtain ⟨generation, signal⟩ := event
  simp only [Session.handle, ha, if_true]
  cases signal with
  | loaded => exact h.finishLoad now
  | loadFailed error =>
      simp only [orDefault_eq, hfail (.loadFailed error) _ rfl]
      exact shows_fail s _ loadedAt
  | mountFailed error =>
      simp only [orDefault_eq, hfail (.mountFailed error) _ rfl]
      exact shows_fail s _ loadedAt
  | bridge channel payload =>
      have hb : standing.hear (.bridge channel payload) = standing := by cases standing <;> rfl
      simp only [hb]
      split <;> exact h

theorem Shows.tick {standing : Standing} {loadedAt : Nat} {s : Session ε}
    (h : standing.Shows loadedAt s) (now : Nat) :
    (standing.pass (s.timing.loadLimit.any (loadedAt + · ≤ now))).Shows loadedAt (s.tick now) := by
  have hc : standing.Shows loadedAt (s.endCrossfade now) := by
    simp only [Session.endCrossfade]
    split
    · exact ⟨h.phase_eq, h.error_eq, h.blocked_eq, h.loadDue_eq⟩
    · exact h
  have ht : (s.endCrossfade now).timing = s.timing := by
    simp only [Session.endCrossfade]
    split <;> rfl
  rw [Session.tick, ← ht]
  generalize s.endCrossfade now = s at hc
  obtain ⟨hp, he, hb, hd⟩ := hc
  cases standing with
  | failed text | finished | overdue =>
      have hn : s.loadDue = none := hd
      simp only [Session.expireLoad, hn, Session.isDue, Option.any_none, Bool.false_eq_true,
        if_false]
      exact ⟨hp, he, hb, hd⟩
  | waiting =>
      have hw : Session.isDue s.loadDue now = s.timing.loadLimit.any (loadedAt + · ≤ now) := by
        rw [hd]
        cases h : s.timing.loadLimit <;> simp [loadDue, Session.isDue, h]
      simp only [Session.expireLoad, hw, pass]
      cases hlate : s.timing.loadLimit.any (loadedAt + · ≤ now) with
      | false => exact ⟨hp, he, hb, hd⟩
      | true =>
          have hx : s.phase = .loading ∧ s.error = none := ⟨hp, he⟩
          simp only [if_true, hx, and_self]
          exact ⟨rfl, rfl, hb, rfl⟩

end Standing

structure LoadHistory where
  loadedAt : Nat
  heard : List Signal := []
  ticks : List Nat := []

namespace LoadHistory

variable {ε : Type}

def failures (history : LoadHistory) : List String :=
  history.heard.filterMap Signal.failure?

def isLate (history : LoadHistory) (timing : Timing) (now : Nat) : Bool :=
  timing.loadLimit.any (history.loadedAt + · ≤ now)

def standing (history : LoadHistory) (timing : Timing) : Standing :=
  .ofFindings history.failures.getLast? (history.heard.any Signal.isLoaded)
    (history.ticks.any (history.isLate timing))

def hear (history : LoadHistory) (signals : List Signal) : LoadHistory :=
  { history with heard := history.heard ++ signals }

def pass (history : LoadHistory) (times : List Nat) : LoadHistory :=
  { history with ticks := history.ticks ++ times }

theorem standing_hear (history : LoadHistory) (signal : Signal) (timing : Timing) :
    (history.hear [signal]).standing timing = (history.standing timing).hear signal := by
  have hf : (history.hear [signal]).failures.getLast? =
      signal.failure?.or history.failures.getLast? := by
    cases h : signal.failure? <;> simp [failures, hear, h]
  have hl : (history.hear [signal]).heard.any Signal.isLoaded =
      (history.heard.any Signal.isLoaded || signal.isLoaded) := by
    simp [hear, List.any_append]
  rw [standing, hf, hl]
  exact Standing.ofFindings_hear ..

theorem standing_pass (history : LoadHistory) (now : Nat) (timing : Timing) :
    (history.pass [now]).standing timing =
      (history.standing timing).pass (history.isLate timing now) := by
  have ht : (history.pass [now]).ticks.any ((history.pass [now]).isLate timing) =
      (history.ticks.any (history.isLate timing) || history.isLate timing now) := by
    simp only [pass, List.any_append, List.any_cons, List.any_nil, Bool.or_false]
    rfl
  rw [standing, ht]
  exact Standing.ofFindings_pass ..

structure Tracks (history : LoadHistory) (s : Session ε) : Prop where
  live : s.host.live = true
  opened : s.host.closed = false
  shows_standing : (history.standing s.timing).Shows history.loadedAt s

variable [Engine ε]

theorem Tracks.step {history : LoadHistory} {s : Session ε} (h : history.Tracks s)
    (call : SessionCall ε) (quiet : s.actsOf call = []) :
    ((history.hear (s.hears call)).pass call.tick?.toList).Tracks (s.step call) := by
  have hnil : history.hear [] = history := by simp [hear]
  have pnil : ∀ g : LoadHistory, g.pass [] = g := fun g => by simp [pass]
  obtain ⟨hl, hc, hs⟩ := h
  cases call with
  | update source token now =>
      have hu : s.step (.update source token now) = s.see token :=
        congrArg Prod.snd (Session.update_of_quiet hl hc quiet)
      simp only [Session.hears, SessionCall.tick?, Option.toList_none, hnil, pnil, hu]
      exact ⟨hl, hc, ⟨hs.phase_eq, hs.error_eq, hs.blocked_eq, hs.loadDue_eq⟩⟩
  | handle event now =>
      have hh := Session.handle_host s event now
      refine ⟨by simpa [Session.step, hh] using hl, by simpa [Session.step, hh] using hc, ?_⟩
      simp only [SessionCall.tick?, Option.toList_none, pnil, Session.hears, Session.step]
      cases ha : s.host.accepts event.generation with
      | false => simpa [Session.handle, ha, hnil] using hs
      | true =>
          have ht : (s.handle event now).session.timing = s.timing :=
            congrArg (·.2.2.1) (s.handle_frame event now)
          rw [ht, Session.handle_accepted, if_pos ha, standing_hear]
          exact hs.handle ha now
  | tick now =>
      have hh := Session.tick_host s now
      refine ⟨by simpa [Session.step, hh] using hl, by simpa [Session.step, hh] using hc, ?_⟩
      simp only [Session.hears, SessionCall.tick?, Option.toList_some, hnil, Session.step]
      have ht : (s.tick now).timing = s.timing := congrArg (·.2.2.1) (s.tick_frame now)
      rw [ht, standing_pass]
      exact hs.tick now
  | close =>
      rw [Session.actsOf_close] at quiet
      simp [hc, Host.teardownActs, hl] at quiet
  | engineMoves move =>
      simp only [Session.hears, SessionCall.tick?, Option.toList_none, hnil, pnil]
      exact ⟨hl, hc, ⟨hs.phase_eq, hs.error_eq, hs.blocked_eq, hs.loadDue_eq⟩⟩

theorem tracks_of_loaded {s : Session ε} {source : Source} {token : UInt64} {now : Nat}
    {generation : Generation} {document : Document}
    (loaded : .loaded generation document ∈ s.actsOf (.update source token now)) :
    Tracks ⟨now, [], []⟩ (s.step (.update source token now)) := by
  obtain ⟨hc, -, t, ht, hu, hacts⟩ := Session.reloads_of_loaded loaded
  have htc : t.host.closed = false := by rw [ht.closed_eq, hc]
  change Tracks ⟨now, [], []⟩ (s.update source token now).2
  rcases Session.reload_cases htc (.ofSource source.text s.options) now with
    ⟨engine, -, hr⟩ | ⟨failure, engine, he, -⟩
  · rw [hu, hr]
    exact ⟨rfl, htc, Standing.shows_loading t _ _ now⟩
  · simp [Host.loadActs, he] at hacts

theorem Tracks.run {history : LoadHistory} {s : Session ε} (h : history.Tracks s)
    (calls : List (SessionCall ε)) (quiet : s.acts calls = []) :
    ((history.hear (s.heard calls)).pass (calls.filterMap SessionCall.tick?)).Tracks
      (s.run calls) := by
  induction calls generalizing history s with
  | nil => simpa [hear, pass, Session.heard] using h
  | cons call calls ih =>
      obtain ⟨hcall, hcalls⟩ := List.append_eq_nil_iff.1 quiet
      have := ih (h.step call hcall) hcalls
      cases ht : call.tick? <;>
        simpa [hear, pass, Session.heard, List.filterMap_cons, ht, List.append_assoc] using this

end LoadHistory

theorem any_isLoaded_iff {signals : List Signal} :
    signals.any Signal.isLoaded = true ↔ .loaded ∈ signals := by
  rw [List.any_eq_true]
  constructor
  · rintro ⟨signal, hm, hl⟩
    cases signal <;> first | exact hm | cases hl
  · exact fun hm => ⟨_, hm, rfl⟩

theorem mem_ticks_iff {ε : Type} {calls : List (SessionCall ε)} {now : Nat} :
    now ∈ calls.filterMap SessionCall.tick? ↔ .tick now ∈ calls := by
  rw [List.mem_filterMap]
  constructor
  · rintro ⟨call, hm, hc⟩
    cases call <;> cases hc
    exact hm
  · exact fun hm => ⟨_, hm, rfl⟩

theorem any_isLate_iff {ε : Type} {history : LoadHistory} {timing : Timing}
    {calls : List (SessionCall ε)} :
    (calls.filterMap SessionCall.tick?).any (history.isLate timing) = true ↔
      ∃ limit, timing.loadLimit = some limit ∧
        ∃ now, .tick now ∈ calls ∧ history.loadedAt + limit ≤ now := by
  simp only [List.any_eq_true, mem_ticks_iff, LoadHistory.isLate]
  cases timing.loadLimit <;> simp

variable {ε : Type} [Engine ε]

/-- A load that the engine has taken, followed by calls that ask nothing of the engine: the session
is ready exactly when a finished load and no failure has been heard since, and its error is the
last failure, or else the timeout unless it is ready. -/
theorem overlay_since_load (s : Session ε) (source : Source) (token : UInt64) (loadedAt : Nat)
    (generation : Generation) (document : Document) (after : List (SessionCall ε))
    (loaded : .loaded generation document ∈ s.actsOf (.update source token loadedAt))
    (quiet : (s.step (.update source token loadedAt)).acts after = []) :
    let heard := (s.step (.update source token loadedAt)).heard after
    let failures := heard.filterMap Signal.failure?
    let late := ∃ limit, s.timing.loadLimit = some limit ∧
      ∃ now, .tick now ∈ after ∧ loadedAt + limit ≤ now
    let t := (s.step (.update source token loadedAt)).run after
    (t.phase = .ready ↔ .loaded ∈ heard ∧ failures = []) ∧
    (t.phase ≠ .ready → t.phase = .loading) ∧
    (∀ text, failures.getLast? = some text → t.error = some text) ∧
    (t.phase = .ready → t.error = none) ∧
    (t.phase ≠ .ready → failures = [] →
      (late → t.error = some (Session.timeoutMessage s.timing)) ∧ (¬ late → t.error = none)) := by
  intro heard failures late t
  have htracks := (LoadHistory.tracks_of_loaded loaded).run after quiet
  have htiming : t.timing = s.timing := by
    have h := Session.run_settings (s.step (.update source token loadedAt)) after
    rw [Session.step_settings] at h
    exact congrArg (·.2.2) h
  obtain ⟨-, -, hp, he, -, -⟩ := htracks
  -- The standing is told from the last failure, the finished loads and the late ticks.
  let history : LoadHistory := ⟨loadedAt, [], []⟩
  have hs : ((history.hear heard).pass (after.filterMap SessionCall.tick?)).standing t.timing =
      .ofFindings failures.getLast? (heard.any Signal.isLoaded)
        ((after.filterMap SessionCall.tick?).any (history.isLate s.timing)) := by
    rw [htiming]
    rfl
  have hlate : (after.filterMap SessionCall.tick?).any (history.isLate s.timing) = true ↔ late :=
    any_isLate_iff
  have hheard : heard.any Signal.isLoaded = true ↔ .loaded ∈ heard := any_isLoaded_iff
  rw [hs] at hp he
  rw [htiming] at he
  rw [hp, he, ← hlate, ← hheard, ← List.getLast?_eq_none_iff]
  cases failures.getLast? <;> cases heard.any Signal.isLoaded <;>
    cases (after.filterMap SessionCall.tick?).any (history.isLate s.timing) <;>
    simp [Standing.ofFindings, Standing.phase, Standing.error]

def timeoutThenFailure : List (SessionCall TracedEngine) :=
  [.tick 15000, .handle ⟨1, .loaded⟩ 15001, .handle ⟨1, .loadFailed ""⟩ 15002, .tick 40000]

theorem overlay_of_timeoutThenFailure :
    let t := Session.sample.step (.update Session.sampleSource 0 0)
    .loaded 1 (.ofSource Session.sampleSource.text {}) ∈
      Session.sample.actsOf (.update Session.sampleSource 0 0) ∧
    t.acts timeoutThenFailure = [] ∧
    (t.run timeoutThenFailure).phase = .loading ∧
    (t.run timeoutThenFailure).error = some "Preview failed to load" := by
  have hacts : Session.sample.actsOf (.update Session.sampleSource 0 0) =
      [.loaded 1 (.ofSource Session.sampleSource.text {})] := by rfl
  have hloaded : .loaded 1 (.ofSource Session.sampleSource.text {}) ∈
      Session.sample.actsOf (.update Session.sampleSource 0 0) := by
    rw [hacts]
    exact List.mem_singleton_self _
  have hquiet : (Session.sample.step (.update Session.sampleSource 0 0)).acts timeoutThenFailure =
      [] := by rfl
  have hfailures : ((Session.sample.step (.update Session.sampleSource 0 0)).heard
      timeoutThenFailure).filterMap Signal.failure? = ["Preview failed to load"] := by rfl
  obtain ⟨hready, hloading, hfailure, -, -⟩ :=
    overlay_since_load _ _ 0 0 1 _ timeoutThenFailure hloaded hquiet
  rw [hfailures] at hready hfailure
  refine ⟨hloaded, hquiet, hloading fun h => ?_, hfailure _ rfl⟩
  cases (hready.1 h).2

end LivePreview
