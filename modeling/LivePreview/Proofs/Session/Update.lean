import LivePreview.Proofs.Session.Run

/-!
What an update can come to. A closed session refuses it; an empty source empties the session; an
unchanged source does nothing unless a refresh is asked for; everything else is a load, which the
engine takes or refuses.
-/

namespace LivePreview

namespace Host

variable {ε : Type} [Engine ε]

def afterLoad (host : Host ε) (engine : ε) (taken : Bool) : Host ε :=
  { host with engine, generation := host.generation + 1, live := taken }

def loadActs (host : Host ε) (document : Document) : List EngineAct :=
  match (Engine.load host.engine (host.generation + 1) document).1 with
  | .ok _ => [.loaded (host.generation + 1) document]
  | .error failure => [.refused (host.generation + 1) document failure]

def teardownActs (host : Host ε) : List EngineAct :=
  if host.live then [.tornDown] else []

theorem loadActs_ne_nil (host : Host ε) (document : Document) : host.loadActs document ≠ [] := by
  unfold loadActs
  split <;> simp

def unwatched (host : Host (Watched ε)) : Host ε :=
  { host with engine := host.engine.engine }

theorem acts_teardown (host : Host (Watched ε)) :
    host.teardown.engine.acts = host.engine.acts ++ host.unwatched.teardownActs := by
  cases h : host.live <;>
    simp [teardown, teardownActs, unwatched, h, Engine.teardown, Watched.teardown]

theorem unwatched_teardown (host : Host (Watched ε)) :
    host.teardown.unwatched = host.unwatched.teardown := by
  cases h : host.live <;> simp [teardown, unwatched, h, Engine.teardown, Watched.teardown]

end Host

namespace Session

variable {ε : Type}

theorem handle_accepted (s : Session ε) (event : GuestReport) (now : Nat) :
    (s.handle event now).accepted = s.host.accepts event.generation := by
  unfold handle
  cases h : s.host.accepts event.generation with
  | false => rfl
  | true =>
      cases event.signal with
      | bridge channel payload => simp only [if_true]; split <;> rfl
      | _ => rfl

/-- What only updates and closing change. -/
def frame (s : Session ε) : String × Document.Options × Timing × Host ε × Option Source
    × Option UInt64 × Option Document :=
  (s.id, s.options, s.timing, s.host, s.source, s.refreshToken, s.document)

theorem handle_frame (s : Session ε) (event : GuestReport) (now : Nat) :
    (s.handle event now).session.frame = s.frame := by
  unfold handle finishLoad fail
  split
  · cases event.signal with
    | loaded => simp only; split <;> rfl
    | loadFailed error => rfl
    | mountFailed error => rfl
    | bridge channel payload => simp only; split <;> rfl
  · rfl

theorem tick_frame (s : Session ε) (now : Nat) : (s.tick now).frame = s.frame := by
  simp only [tick, endCrossfade, expireLoad]
  split <;> split <;> (try split) <;> rfl

theorem handle_host (s : Session ε) (event : GuestReport) (now : Nat) :
    (s.handle event now).session.host = s.host :=
  congrArg (·.2.2.2.1) (s.handle_frame event now)

theorem tick_host (s : Session ε) (now : Nat) : (s.tick now).host = s.host :=
  congrArg (·.2.2.2.1) (s.tick_frame now)

theorem tick_phase (s : Session ε) (now : Nat) : (s.tick now).phase = s.phase := by
  simp only [tick, endCrossfade, expireLoad]
  split <;> split <;> (try split) <;> rfl

theorem handle_of_not_accepts {s : Session ε} {event : GuestReport}
    (h : s.host.accepts event.generation = false) (now : Nat) :
    s.handle event now = ⟨false, s, none⟩ := by
  simp [handle, h]

theorem idle_of_handle {s : Session ε} {event : GuestReport} {now : Nat}
    (h : (s.handle event now).session.phase = .idle) : s.phase = .idle := by
  cases ha : s.host.accepts event.generation with
  | false => rwa [handle_of_not_accepts ha] at h
  | true =>
      simp only [handle, ha, if_true] at h
      cases hsig : event.signal with
      | loaded =>
          simp only [hsig, finishLoad] at h
          split at h
          · exact h
          · cases h
      | loadFailed error =>
          rw [hsig] at h
          cases h
      | mountFailed error =>
          rw [hsig] at h
          cases h
      | bridge channel payload =>
          simp only [hsig] at h
          split at h <;> exact h

def settings (s : Session ε) : String × Document.Options × Timing :=
  (s.id, s.options, s.timing)

theorem settings_of_frame {s t : Session ε} (h : t.frame = s.frame) : t.settings = s.settings :=
  congrArg (fun frame => (frame.1, frame.2.1, frame.2.2.1)) h

variable [Engine ε]

def loading (s : Session ε) (host : Host ε) (document : Document) (now : Nat) : Session ε :=
  { s with
    host
    phase := .loading
    error := none
    blocked := false
    crossfade := true
    crossfadeDue := none
    loadDue := s.timing.loadLimit.map (now + ·)
    document := some document }

def emptied (s : Session ε) : Session ε :=
  { s.clear with host := s.host.teardown, source := none }

def tornDown (s : Session ε) : Session ε :=
  { s with host := s.host.teardown }

inductive Reloads (s : Session ε) (source : Source) (token : UInt64) : Session ε → Prop where
  | refresh : s.source = some source → s.asksRefresh token = true →
      Reloads s source token (s.see token).tornDown
  | change : s.source ≠ some source →
      Reloads s source token { s.see token with source := some source }

theorem update_of_closed {s : Session ε} (h : s.host.closed = true) (source : Source)
    (token : UInt64) (now : Nat) : s.update source token now = (.error .closed, s) := by
  simp [update, h]

theorem update_of_isEmpty {s : Session ε} {source : Source} (h : s.host.closed = false)
    (hs : source.isEmpty = true) (token : UInt64) (now : Nat) :
    s.update source token now = (.ok (), (s.see token).emptied) := by
  simp [update, h, hs, emptied, see, clear]

theorem update_of_unchanged {s : Session ε} {source : Source} {token : UInt64}
    (h : s.host.closed = false) (hs : source.isEmpty = false) (hu : s.source = some source)
    (ht : s.asksRefresh token = false) (now : Nat) :
    s.update source token now = (.ok (), s.see token) := by
  simp [update, h, hs, ht, see, hu]

theorem update_of_reloads {s t : Session ε} {source : Source} {token : UInt64}
    (h : s.host.closed = false) (hs : source.isEmpty = false) (hr : Reloads s source token t)
    (now : Nat) :
    s.update source token now = t.reload (.ofSource source.text s.options) now := by
  cases hr with
  | refresh hu ht => simp [update, h, hs, ht, see, hu, tornDown]
  | change hu => simp [update, h, hs, see, hu]

theorem update_cases (s : Session ε) (source : Source) (token : UInt64) (now : Nat) :
    (s.host.closed = true ∧ s.update source token now = (.error .closed, s)) ∨
    (s.host.closed = false ∧ source.isEmpty = true ∧
      s.update source token now = (.ok (), (s.see token).emptied)) ∨
    (s.host.closed = false ∧ source.isEmpty = false ∧ s.source = some source ∧
      s.asksRefresh token = false ∧ s.update source token now = (.ok (), s.see token)) ∨
    (s.host.closed = false ∧ source.isEmpty = false ∧ ∃ t, Reloads s source token t ∧
      s.update source token now = t.reload (.ofSource source.text s.options) now) := by
  cases hc : s.host.closed with
  | true => exact .inl ⟨rfl, update_of_closed hc source token now⟩
  | false =>
      cases hs : source.isEmpty with
      | true => exact .inr (.inl ⟨rfl, rfl, update_of_isEmpty hc hs token now⟩)
      | false =>
          by_cases hu : s.source = some source
          · cases ht : s.asksRefresh token with
            | false =>
                have hupdate := update_of_unchanged hc hs hu ht now
                exact .inr (.inr (.inl ⟨rfl, rfl, hu, rfl, hupdate⟩))
            | true =>
                have hr : Reloads s source token _ := .refresh hu ht
                exact .inr (.inr (.inr ⟨rfl, rfl, _, hr, update_of_reloads hc hs hr now⟩))
          · have hr : Reloads s source token _ := .change hu
            exact .inr (.inr (.inr ⟨rfl, rfl, _, hr, update_of_reloads hc hs hr now⟩))

theorem Reloads.closed_eq {s t : Session ε} {source : Source} {token : UInt64}
    (h : Reloads s source token t) : t.host.closed = s.host.closed := by
  cases h <;> rfl

theorem reload_cases {s : Session ε} (h : s.host.closed = false) (document : Document)
    (now : Nat) :
    (∃ engine, Engine.load s.host.engine (s.host.generation + 1) document = (.ok (), engine) ∧
      s.reload document now =
        (.ok (), s.loading (s.host.afterLoad engine true) document now)) ∨
    (∃ failure engine,
      Engine.load s.host.engine (s.host.generation + 1) document = (.error failure, engine) ∧
      s.reload document now = (.error failure,
        (s.loading (s.host.afterLoad engine false) document now).fail failure.message)) := by
  rcases he : Engine.load s.host.engine (s.host.generation + 1) document with ⟨result, engine⟩
  cases result with
  | ok _ => exact .inl ⟨engine, rfl, by simp [reload, Host.load, h, he, loading, Host.afterLoad]⟩
  | error failure =>
      exact .inr ⟨failure, engine, rfl, by
        simp [reload, Host.load, h, he, loading, Host.afterLoad]⟩

theorem update_open {s : Session ε} (h : s.host.closed = false)
    (source : Source) (token : UInt64) (now : Nat) :
    (s.update source token now).2.host.closed = false ∧
      (s.update source token now).2.source = (some source).filter (!·.isEmpty) ∧
      (s.update source token now).2.refreshToken.isSome = true := by
  rcases s.update_cases source token now with
    ⟨hc, -⟩ | ⟨-, hs, hu⟩ | ⟨-, hs, he, -, hu⟩ | ⟨-, hs, t, ht, hu⟩
  · rw [h] at hc
    cases hc
  · rw [hu, Option.filter_some, hs]
    exact ⟨h, rfl, rfl⟩
  · rw [hu, Option.filter_some, hs]
    exact ⟨h, he, rfl⟩
  · have htc : t.host.closed = false := by rw [ht.closed_eq, h]
    have htt : t.source = some source ∧ t.refreshToken.isSome = true := by
      cases ht with
      | refresh he _ => exact ⟨he, rfl⟩
      | change _ => exact ⟨rfl, rfl⟩
    rw [hu, Option.filter_some, hs]
    rcases reload_cases htc (.ofSource source.text s.options) now with
      ⟨engine, -, hr⟩ | ⟨failure, engine, -, hr⟩
    · rw [hr]
      exact ⟨htc, htt⟩
    · rw [hr]
      exact ⟨htc, htt⟩

theorem acts_reload {s : Session (Watched ε)} (h : s.host.closed = false) (document : Document)
    (now : Nat) :
    (s.reload document now).2.host.engine.acts =
      s.host.engine.acts ++ s.host.unwatched.loadActs document := by
  rcases he : Engine.load s.host.engine.engine (s.host.generation + 1) document with
    ⟨result, engine⟩
  cases result with
  | ok _ =>
      simp [reload, Host.load, h, Host.loadActs, Host.unwatched, he, Engine.load, Watched.load]
  | error failure =>
      simp [reload, Host.load, h, Host.loadActs, Host.unwatched, he, Engine.load, Watched.load,
        fail]

theorem actsOf_update (s : Session ε) (source : Source) (token : UInt64) (now : Nat) :
    s.actsOf (.update source token now) =
      if s.host.closed then []
      else if source.isEmpty then s.host.teardownActs
      else if s.source = some source then
        if s.asksRefresh token then
          s.host.teardownActs ++ s.host.teardown.loadActs (.ofSource source.text s.options)
        else []
      else s.host.loadActs (.ofSource source.text s.options) := by
  change (s.watched.update source token now).2.host.engine.acts = _
  cases hc : s.host.closed with
  | true =>
      rw [update_of_closed (s := s.watched) hc]
      rfl
  | false =>
      cases hs : source.isEmpty with
      | true =>
          rw [update_of_isEmpty (s := s.watched) hc hs]
          exact Host.acts_teardown s.watched.host
      | false =>
          by_cases hu : s.source = some source
          · cases ht : s.asksRefresh token with
            | false =>
                rw [update_of_unchanged (s := s.watched) hc hs hu ht]
                simp [watched, see, hu]
            | true =>
                rw [update_of_reloads (s := s.watched) hc hs (.refresh hu ht),
                  acts_reload (s := (s.watched.see token).tornDown) hc]
                change s.watched.host.teardown.engine.acts ++
                  s.watched.host.teardown.unwatched.loadActs _ = _
                rw [Host.acts_teardown, Host.unwatched_teardown]
                simp only [Bool.false_eq_true, if_false, hu, if_true]
                rfl
          · rw [update_of_reloads (s := s.watched) hc hs (.change hu), acts_reload hc]
            simp only [Bool.false_eq_true, if_false, hu]
            rfl

theorem actsOf_handle (s : Session ε) (event : GuestReport) (now : Nat) :
    s.actsOf (.handle event now) = [] :=
  congrArg (·.engine.acts) (handle_host s.watched event now)

theorem actsOf_tick (s : Session ε) (now : Nat) : s.actsOf (.tick now) = [] :=
  congrArg (·.engine.acts) (tick_host s.watched now)

theorem actsOf_close (s : Session ε) :
    s.actsOf .close = if s.host.closed then [] else s.host.teardownActs := by
  change s.watched.close.host.engine.acts = _
  cases hc : s.host.closed with
  | true => simp [close, watched, hc]
  | false =>
      have hw : s.watched.host.closed = false := hc
      simp only [close, hw, Host.close, Bool.false_eq_true, if_false]
      exact Host.acts_teardown s.watched.host

theorem actsOf_engineMoves (s : Session ε) (move : ε → ε) :
    s.actsOf (.engineMoves move) = [] := rfl

theorem actsOf_of_reloads {s t : Session ε} {source : Source} {token : UInt64}
    (hc : s.host.closed = false) (hs : source.isEmpty = false) (hr : Reloads s source token t)
    (now : Nat) :
    s.actsOf (.update source token now) =
      (if s.source = some source then s.host.teardownActs else []) ++
        t.host.loadActs (.ofSource source.text s.options) := by
  cases hr with
  | refresh hu ht =>
      simp only [actsOf_update, hc, hs, hu, ht, Bool.false_eq_true, if_false, if_true]
      rfl
  | change hu =>
      simp only [actsOf_update, hc, hs, hu, Bool.false_eq_true, if_false, List.nil_append]
      rfl

theorem reloads_of_loaded {s : Session ε} {source : Source} {token : UInt64} {now : Nat}
    {generation : Generation} {document : Document}
    (h : .loaded generation document ∈ s.actsOf (.update source token now)) :
    s.host.closed = false ∧ source.isEmpty = false ∧ ∃ t, Reloads s source token t ∧
      s.update source token now = t.reload (.ofSource source.text s.options) now ∧
      t.host.loadActs (.ofSource source.text s.options) = [.loaded generation document] := by
  rcases s.update_cases source token now with
    ⟨hc, -⟩ | ⟨hc, hs, -⟩ | ⟨hc, hs, hu, ht, -⟩ | ⟨hc, hs, t, ht, hu⟩
  · simp [actsOf_update, hc] at h
  · simp [actsOf_update, hc, hs, Host.teardownActs] at h
  · simp [actsOf_update, hc, hs, hu, ht] at h
  · refine ⟨hc, hs, t, ht, hu, ?_⟩
    have hm : .loaded generation document ∈ t.host.loadActs (.ofSource source.text s.options) := by
      rw [actsOf_of_reloads hc hs ht] at h
      rcases List.mem_append.1 h with h | h
      · split at h <;> simp [Host.teardownActs] at h
      · exact h
    unfold Host.loadActs at hm ⊢
    split at hm <;> simp at hm
    obtain ⟨rfl, rfl⟩ := hm
    rfl

theorem update_of_quiet {s : Session ε} {source : Source} {token : UInt64} {now : Nat}
    (hl : s.host.live = true) (hc : s.host.closed = false)
    (quiet : s.actsOf (.update source token now) = []) :
    s.update source token now = (.ok (), s.see token) := by
  have ht : s.host.teardownActs ≠ [] := by simp [Host.teardownActs, hl]
  rw [actsOf_update, hc] at quiet
  cases hs : source.isEmpty with
  | true => simp [hs, ht] at quiet
  | false =>
      by_cases hu : s.source = some source
      · cases hr : s.asksRefresh token with
        | true => simp [hs, hu, hr, ht] at quiet
        | false => exact update_of_unchanged hc hs hu hr now
      · simp [hs, hu, Host.loadActs_ne_nil] at quiet

theorem reload_settings (s : Session ε) (document : Document) (now : Nat) :
    (s.reload document now).2.settings = s.settings := by
  simp only [reload]
  split <;> rfl

theorem update_settings (s : Session ε) (source : Source) (token : UInt64) (now : Nat) :
    (s.update source token now).2.settings = s.settings := by
  rcases s.update_cases source token now with
    ⟨-, h⟩ | ⟨-, -, h⟩ | ⟨-, -, -, -, h⟩ | ⟨-, -, t, ht, h⟩
  · rw [h]
  · rw [h]; rfl
  · rw [h]; rfl
  · rw [h, reload_settings]
    cases ht <;> rfl

theorem step_settings (s : Session ε) (call : SessionCall ε) :
    (s.step call).settings = s.settings := by
  cases call with
  | update source token now => exact s.update_settings source token now
  | handle event now => exact settings_of_frame (s.handle_frame event now)
  | tick now => exact settings_of_frame (s.tick_frame now)
  | close => simp only [step, close]; split <;> rfl
  | engineMoves move => rfl

theorem run_settings (s : Session ε) (calls : List (SessionCall ε)) :
    (s.run calls).settings = s.settings := by
  induction calls generalizing s with
  | nil => rfl
  | cons call calls ih => rw [run_cons, ih, step_settings]

end Session

end LivePreview
