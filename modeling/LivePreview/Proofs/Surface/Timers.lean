import LivePreview.Proofs.Session.Ticks
import LivePreview.Proofs.Surface.Closing

namespace LivePreview.Actor

variable {actor : Actor} {due now last : Nat}

theorem fire_of_not_due (h : ∀ due, actor.nextTick = some due → now < due) :
    actor.fire now = actor := by
  have hnot : ¬ actor.nextTick.any (· ≤ now) = true := by
    cases hnext : actor.nextTick with
    | none => simp
    | some due => simpa using h due hnext
  rw [fire, if_neg hnot]

theorem fire_of_due (h : actor.nextTick = some due) (hle : due ≤ now) :
    actor.fire now = ({ actor with session := actor.session.tick now } : Actor).publish := by
  rw [fire, h, if_pos (by simpa using hle)]

theorem session_nextTick (h : actor.nextTick = some due) : actor.session.nextTick = some due := by
  unfold nextTick at h
  split at h
  · cases h
  · exact h

theorem nextTick_publish (h : actor.session.nextTick = none) : actor.publish.nextTick = none := by
  rw [publish_eq, nextTick]
  exact (congrArg (ite _ none) h).trans (ite_self none)

theorem nextTick_fire (hplaced : actor.session.Placed) (h : actor.nextTick = some due)
    (hle : due ≤ now) : (actor.fire now).nextTick = none := by
  rw [fire_of_due h hle]
  exact nextTick_publish (hplaced.nextTick_tick (session_nextTick h) hle)

theorem nextTick_call (h : actor.nextTick = none) {c : ActorCall} (hc : actor.takes c = []) :
    (actor.call c).actor.nextTick = none := by
  cases c with
  | enqueue command =>
    simp only [call, enqueue]
    split <;> exact h
  | turn now =>
    cases hf : actor.finished with
    | true =>
      rw [call, step_of_finished hf]
      exact h
    | false =>
      cases hq : actor.queue with
      | nil =>
        rw [call, step_of_nil hq]
        exact h
      | cons command queue => simp [takes, hf, hq] at hc
  | timer now =>
    have hquiet : actor.fire now = actor := fire_of_not_due (by simp [h])
    rw [call, hquiet]
    exact h

theorem nextTick_run (h : actor.nextTick = none) {calls : List ActorCall}
    (hcalls : actor.taken calls = []) : (actor.run calls).nextTick = none := by
  induction calls generalizing actor with
  | nil => exact h
  | cons c calls ih =>
    obtain ⟨hc, hrest⟩ := List.append_eq_nil_iff.1 hcalls
    exact ih (nextTick_call h hc) hrest

theorem fire_fire (hplaced : actor.session.Placed) (hle : now ≤ last) :
    (actor.fire now).fire last = actor.fire last := by
  by_cases hdue : ∀ due, actor.nextTick = some due → now < due
  · rw [fire_of_not_due hdue]
  · obtain ⟨due, hnext, hpast⟩ : ∃ due, actor.nextTick = some due ∧ due ≤ now := by
      simpa using hdue
    have hnone : (actor.fire now).nextTick = none := nextTick_fire hplaced hnext hpast
    have hspent := hplaced.nextTick_tick (session_nextTick hnext) hpast
    have hsame : actor.session.tick now = actor.session.tick last := by
      rw [← actor.session.tick_tick hle]
      exact (Session.tick_eq_self_iff.2 (by simp [hspent])).symm
    rw [fire_of_not_due (by simp [hnone]), fire_of_due hnext hpast,
      fire_of_due hnext (Nat.le_trans hpast hle), hsame]

theorem placed_fire (h : actor.session.Placed) (now : Nat) : (actor.fire now).session.Placed := by
  unfold fire
  split
  · rw [publish_eq]
    exact (h.tick now).beside _ _
  · exact h

theorem foldl_fire (hplaced : actor.session.Placed) {times : List Nat}
    (h : ∀ time ∈ times, time ≤ last) : (times ++ [last]).foldl fire actor = actor.fire last := by
  induction times generalizing actor with
  | nil => rfl
  | cons time times ih =>
    obtain ⟨htime, htimes⟩ := List.forall_mem_cons.1 h
    rw [List.cons_append, List.foldl_cons, ih (placed_fire hplaced time) htimes,
      fire_fire hplaced htime]

/-- Ticks of a session come to what the last of them does alone, and one that comes before the next
deadline changes nothing. The tick that meets the deadline leaves none, and the timer of an actor that
has fired does not fire again before the actor takes up a command. -/
theorem ticks_coalesce {ε : Type} [Engine ε] (id : String) (engine : ε) (options : Document.Options)
    (timing : Timing) (calls : List (SessionCall ε)) (actorCalls : List ActorCall) :
    let reached := (Session.start id engine options timing).run calls
    let actor := (start id options timing).run actorCalls
    (∀ (s : Session ε) earlier later, earlier ≤ later →
      (s.tick earlier).tick later = s.tick later) ∧
    (∀ (s : Session ε) times last, (∀ time ∈ times, time ≤ last) →
      (times ++ [last]).foldl Session.tick s = s.tick last) ∧
    (∀ (s : Session ε) now, s.tick now = s ↔ ∀ due, s.nextTick = some due → now < due) ∧
    (∀ due now, reached.nextTick = some due → due ≤ now → (reached.tick now).nextTick = none) ∧
    (∀ due now between, actor.nextTick = some due → due ≤ now →
      (actor.fire now).taken between = [] → ((actor.fire now).run between).nextTick = none) ∧
    ∀ times last, (∀ time ∈ times, time ≤ last) →
      (times ++ [last]).foldl fire actor = actor.fire last := by
  intro reached actor
  have hsession := (Session.placed_start id engine options timing).run calls
  have hactor := placed_run id options timing actorCalls
  refine ⟨fun s _ _ h => s.tick_tick h, fun s _ _ h => s.foldl_tick h,
    fun _ _ => Session.tick_eq_self_iff, fun _ _ hdue hle => hsession.nextTick_tick hdue hle, ?_,
    fun _ _ h => foldl_fire hactor h⟩
  intro due now between hdue hle hquiet
  exact nextTick_run (nextTick_fire hactor hdue hle) hquiet

end LivePreview.Actor
