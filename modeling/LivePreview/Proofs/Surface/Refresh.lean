import LivePreview.Proofs.Surface.Turn

namespace LivePreview

def greatestToken : UInt64 := 18446744073709551615

theorem lt_succ_iff_ne_greatestToken (token : UInt64) : token < token + 1 ↔ token ≠ greatestToken := by
  rw [UInt64.lt_iff_toNat_lt, Ne, ← UInt64.toNat_inj, UInt64.toNat_add]
  have htoken := token.toNat_lt
  have hone : (1 : UInt64).toNat = 1 := rfl
  have hgreatest : greatestToken.toNat = 18446744073709551615 := rfl
  omega

theorem lt_add_two_iff (generation : Generation) :
    generation < generation + 1 + 1 ↔ generation.toNat + 2 < UInt64.size := by
  rw [UInt64.lt_iff_toNat_lt, UInt64.toNat_add, UInt64.toNat_add]
  have hgeneration := generation.toNat_lt
  have hone : (1 : UInt64).toNat = 1 := rfl
  have hsize : UInt64.size = 18446744073709551616 := rfl
  omega

theorem ne_add_two (generation : Generation) : generation ≠ generation + 1 + 1 := by
  rw [Ne, ← UInt64.toNat_inj, UInt64.toNat_add, UInt64.toNat_add]
  have hgeneration := generation.toNat_lt
  have hone : (1 : UInt64).toNat = 1 := rfl
  omega

namespace Actor

structure Remounts (before after : Actor) (document : Document) : Prop where
  mounted : before.engine.slot = some (before.session.generation, document)
  sent_eq : after.engine.sent = before.engine.sent ++
    [.teardown, .load after.session.generation, .view (.ofSession after.session)]
  remounted : after.engine.slot = some (after.session.generation, document)
  newer : before.session.generation < after.session.generation
  loading : after.session.phase = .loading
  fading : after.session.crossfade = true

variable {actor : Actor} {source : Source} {queue : List Command}

theorem Current.shows (h : actor.Current) (hf : actor.finished = false)
    (hl : actor.lastSource = some source) (hs : source.isEmpty = false) :
    actor.session.source = some source ∧ actor.session.host.live = true ∧
      actor.engine.slot =
        some (actor.session.generation, .ofSource source.text actor.session.options) := by
  have hsource : actor.session.source = some source := by
    rw [h.source_eq hf, hl]
    simp [hs]
  have hdocument : actor.session.document = some (.ofSource source.text actor.session.options) := by
    rw [h.mounted.document_eq, h.closed_eq, hf, hsource]
    rfl
  refine ⟨hsource, ?_, ?_⟩
  · rw [h.mounted.live_eq, hdocument]
    rfl
  · rw [engine, h.mounted.slot_eq, hdocument]
    rfl

theorem step_refresh (hf : actor.finished = false) (hl : actor.lastSource = some source)
    (hq : actor.queue = .refresh :: queue) (now : Nat) :
    (actor.step now).actor = ({ actor with
      session := (actor.session.update source (nextToken actor.session) now).2
      queue } : Actor).publish := by
  rw [step_of_cons hf hq, perform_refresh, hl]
  rfl

theorem update_refreshed {s : Session PageEngine} {token : UInt64} (hc : s.host.closed = false)
    (hs : source.isEmpty = false) (hsource : s.source = some source) (hlive : s.host.live = true)
    (hr : s.asksRefresh token = true) (now : Nat) :
    let after := (s.update source token now).2
    after.generation = s.generation + 1 + 1 ∧
      after.host.engine.sent =
        s.host.engine.sent ++ [.teardown, .load after.generation] ∧
      after.host.engine.slot =
        some (after.generation, .ofSource source.text s.options) ∧
      after.phase = .loading ∧ after.crossfade = true := by
  intro after
  have hu : after = _ := congrArg Prod.snd (Session.update_of_reloads hc hs (.refresh hsource hr) now)
  rw [Session.reload_eq (by exact hc)] at hu
  have hsent : (s.see token).tornDown.host.engine.sent = s.host.engine.sent ++ [.teardown] := by
    simp [Session.tornDown, Session.see, Host.teardown, hlive, Engine.teardown, PageEngine.teardown,
      PageEngine.send]
  rw [hu]
  refine ⟨rfl, ?_, rfl, rfl, rfl⟩
  change (s.see token).tornDown.host.engine.sent ++ _ = _
  rw [hsent, List.append_assoc]
  rfl

theorem asksRefresh_nextToken_iff {token : UInt64} {session : Session PageEngine}
    (h : session.refreshToken = some token) :
    session.asksRefresh (nextToken session) = true ↔ token ≠ greatestToken := by
  simp [Session.asksRefresh, nextToken, h, lt_succ_iff_ne_greatestToken]

theorem Current.remounts_iff (h : actor.Current) (hf : actor.finished = false)
    (hl : actor.lastSource = some source) (hs : source.isEmpty = false)
    (hq : actor.queue = .refresh :: queue)
    (hr : actor.session.asksRefresh (nextToken actor.session) = true) (now : Nat) :
    Remounts actor (actor.step now).actor (.ofSource source.text actor.session.options) ↔
      actor.session.generation.toNat + 2 < UInt64.size := by
  obtain ⟨hsource, hlive, hslot⟩ := h.shows hf hl hs
  have hc : actor.session.host.closed = false := by rw [h.closed_eq, hf]
  obtain ⟨hg, hsent, hmounted, hphase, hfade⟩ :=
    update_refreshed hc hs hsource hlive hr now
  have hchanged : View.ofSession (actor.session.update source (nextToken actor.session) now).2 ≠
      actor.view := by
    intro heq
    rw [h.view_eq] at heq
    exact ne_add_two actor.session.generation ((congrArg View.generation heq).symm.trans hg)
  rw [step_refresh hf hl hq, publish_eq, ← lt_add_two_iff, ← hg]
  constructor
  · exact Remounts.newer
  · intro hnewer
    refine ⟨hslot, ?_, hmounted, hnewer, hphase, hfade⟩
    simp only [news, hchanged, if_false]
    exact (congrArg (· ++ _) hsent).trans (List.append_assoc ..)

theorem refresh_unnoticed (h : actor.Current) (hf : actor.finished = false)
    (hl : actor.lastSource = some source) (hs : source.isEmpty = false)
    (hq : actor.queue = .refresh :: queue)
    (hr : actor.session.refreshToken = some greatestToken) (now : Nat) :
    (actor.step now).actor = { actor with queue } := by
  have hc : actor.session.host.closed = false := by rw [h.closed_eq, hf]
  have hasks : actor.session.asksRefresh (nextToken actor.session) = false := by
    rw [← Bool.not_eq_true, asksRefresh_nextToken_iff hr]
    exact fun hne => hne rfl
  have hsee : actor.session.see (nextToken actor.session) = actor.session := by
    have hmax : max greatestToken (greatestToken + 1) = greatestToken := by decide
    rw [Session.see, nextToken, hr]
    simp only [Option.elim_some, Option.getD_some, hmax]
    rw [← hr]
  have hupdate := Session.update_of_unchanged hc hs (h.shows hf hl hs).1 hasks now
  rw [hsee] at hupdate
  rw [step_refresh hf hl hq, hupdate, publish, ← h.view_eq, if_pos rfl]

/-- The source that was taken up last is remounted by a refresh unless the tokens, or the generations,
are used up; with the greatest token seen, the refresh changes nothing. -/
theorem refresh_remounts_iff (id : String) (options : Document.Options) (timing : Timing)
    (calls : List ActorCall) (source : Source) (queue : List Command) (now : Nat)
    (opened : .enqueue .close ∉ calls)
    (last : (((start id options timing).taken calls).filterMap Command.source?).getLast? = some source)
    (program : source.isEmpty = false)
    (next : ((start id options timing).run calls).queue = .refresh :: queue) :
    let actor := (start id options timing).run calls
    (Remounts actor (actor.step now).actor (.ofSource source.text options) ↔
      actor.session.refreshToken ≠ some greatestToken ∧
        actor.session.generation.toNat + 2 < UInt64.size) ∧
    (actor.session.refreshToken = some greatestToken →
      (actor.step now).actor = { actor with queue }) := by
  intro actor
  have hcurrent : actor.Current := (current_start id options timing).run calls
  have hrunning : actor.finished = false := ((unclosed_start id options timing).run opened).running
  have hlast : actor.lastSource = some source := by
    rw [run_lastSource, last]
    rfl
  have hoptions : actor.session.options = options :=
    congrArg (·.2.1) (run_settings (start id options timing) calls)
  refine ⟨?_, fun hr => refresh_unnoticed hcurrent hrunning hlast program next hr now⟩
  obtain ⟨token, htoken⟩ := Option.isSome_iff_exists.1 (hcurrent.token_eq.trans (by rw [hlast]; rfl))
  rw [htoken, Ne, Option.some_inj]
  by_cases hgreatest : token = greatestToken
  · subst hgreatest
    rw [refresh_unnoticed hcurrent hrunning hlast program next htoken now]
    refine iff_of_false ?_ fun h => h.1 rfl
    intro hremounts
    exact UInt64.lt_irrefl _ hremounts.newer
  · have hasks := (asksRefresh_nextToken_iff htoken).2 hgreatest
    rw [← hoptions, hcurrent.remounts_iff hrunning hlast program next hasks]
    exact (and_iff_right hgreatest).symm

def refreshedAt (token : UInt64) : List ActorCall :=
  [.enqueue (.update Session.sampleSource (some token)), .turn 0, .enqueue .refresh]

theorem remounts_of_refreshedAt :
    let calls := refreshedAt 7
    let actor := (start "main" {} {}).run calls
    .enqueue .close ∉ calls ∧
      (((start "main" {} {}).taken calls).filterMap Command.source?).getLast? =
        some Session.sampleSource ∧
      Session.sampleSource.isEmpty = false ∧ actor.queue = .refresh :: [] ∧
      Remounts actor (actor.step 1).actor (.ofSource Session.sampleSource.text {}) := by
  intro calls actor
  have hopened : .enqueue .close ∉ calls := by simp [calls, refreshedAt]
  have hlast : (((start "main" {} {}).taken calls).filterMap Command.source?).getLast? =
      some Session.sampleSource := by rfl
  have hprogram : Session.sampleSource.isEmpty = false := by rfl
  have hnext : actor.queue = .refresh :: [] := by rfl
  have htoken : actor.session.refreshToken = some 7 := by rfl
  have hgeneration : actor.session.generation = 1 := by rfl
  have h := refresh_remounts_iff "main" {} {} calls Session.sampleSource [] 1 hopened hlast
    hprogram hnext
  refine ⟨hopened, hlast, hprogram, hnext, h.1.2 ⟨?_, ?_⟩⟩
  · change actor.session.refreshToken ≠ _
    rw [htoken]
    decide
  · change actor.session.generation.toNat + 2 < _
    rw [hgeneration]
    decide

theorem not_remounts_of_greatestToken :
    let actor := (start "main" {} {}).run (refreshedAt greatestToken)
    actor.queue = [.refresh] ∧ actor.session.source = some Session.sampleSource ∧
      ¬ Remounts actor (actor.step 1).actor (.ofSource Session.sampleSource.text {}) := by
  intro actor
  refine ⟨by rfl, by rfl, ?_⟩
  intro hremounts
  have hcurrent : actor.Current := (current_start "main" {} {}).run (refreshedAt greatestToken)
  have hnewer := hremounts.newer
  rw [refresh_unnoticed hcurrent (by rfl) (by rfl) (by rfl) (by rfl) (by rfl)] at hnewer
  exact UInt64.lt_irrefl _ hnewer

end Actor

end LivePreview
