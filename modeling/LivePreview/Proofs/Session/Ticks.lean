import LivePreview.Proofs.Session.Coherence

namespace LivePreview.Session

variable {ε : Type} {s : Session ε} {due now earlier later : Nat}

theorem isDue_iff {deadline : Option Nat} :
    isDue deadline now = true ↔ ∃ due, deadline = some due ∧ due ≤ now := by
  cases deadline <;> simp [isDue]

theorem isDue_of_le {deadline : Option Nat} (h : earlier ≤ later)
    (hdue : isDue deadline earlier = true) : isDue deadline later = true := by
  obtain ⟨due, hdeadline, hle⟩ := isDue_iff.1 hdue
  exact isDue_iff.2 ⟨due, hdeadline, Nat.le_trans hle h⟩

theorem endCrossfade_endCrossfade (s : Session ε) (h : earlier ≤ later) :
    (s.endCrossfade earlier).endCrossfade later = s.endCrossfade later := by
  cases hdue : isDue s.crossfadeDue earlier with
  | false => simp [endCrossfade, hdue]
  | true => simp [endCrossfade, hdue, isDue_of_le h hdue]

theorem expireLoad_expireLoad (s : Session ε) (h : earlier ≤ later) :
    (s.expireLoad earlier).expireLoad later = s.expireLoad later := by
  cases hdue : isDue s.loadDue earlier with
  | false => simp [expireLoad, hdue]
  | true =>
    simp only [expireLoad, hdue, isDue_of_le h hdue, if_true]
    split <;> simp

theorem endCrossfade_expireLoad (s : Session ε) (now other : Nat) :
    (s.expireLoad other).endCrossfade now = (s.endCrossfade now).expireLoad other := by
  simp only [endCrossfade, (s.expireLoad_crossfade other).2]
  cases isDue s.crossfadeDue now with
  | false => rfl
  | true =>
    simp only [expireLoad, if_true]
    split
    · split <;> rfl
    · rfl

theorem tick_tick (s : Session ε) (h : earlier ≤ later) :
    (s.tick earlier).tick later = s.tick later := by
  calc (s.tick earlier).tick later
      = (((s.endCrossfade earlier).endCrossfade later).expireLoad earlier).expireLoad later := by
        rw [tick, tick, endCrossfade_expireLoad]
    _ = s.tick later := by
        rw [endCrossfade_endCrossfade s h, expireLoad_expireLoad _ h, tick]

theorem foldl_tick (s : Session ε) {times : List Nat} {last : Nat}
    (h : ∀ time ∈ times, time ≤ last) : (times ++ [last]).foldl tick s = s.tick last := by
  induction times generalizing s with
  | nil => rfl
  | cons time times ih =>
    obtain ⟨htime, htimes⟩ := List.forall_mem_cons.1 h
    rw [List.cons_append, List.foldl_cons, ih _ htimes, tick_tick s htime]

theorem lt_nextTick_iff : (∀ due, s.nextTick = some due → now < due) ↔
    isDue s.crossfadeDue now = false ∧ isDue s.loadDue now = false := by
  unfold nextTick isDue
  cases s.crossfadeDue with
  | none => cases s.loadDue <;> simp
  | some fade =>
    cases s.loadDue with
    | none => simp
    | some load =>
      simp only [Option.some.injEq, forall_eq', Option.any_some, decide_eq_false_iff_not]
      omega

theorem nextTick_eq_none_iff : s.nextTick = none ↔ s.crossfadeDue = none ∧ s.loadDue = none := by
  unfold nextTick
  cases s.crossfadeDue <;> cases s.loadDue <;> simp

theorem tick_deadlines (s : Session ε) (now : Nat) :
    (s.tick now).crossfadeDue = (if isDue s.crossfadeDue now then none else s.crossfadeDue) ∧
      (s.tick now).loadDue = if isDue s.loadDue now then none else s.loadDue := by
  have hload : (s.endCrossfade now).loadDue = s.loadDue := by
    unfold endCrossfade
    split <;> rfl
  constructor
  · rw [tick, ((s.endCrossfade now).expireLoad_crossfade now).2]
    unfold endCrossfade
    split <;> rfl
  · unfold tick expireLoad
    rw [hload]
    split
    · split <;> rfl
    · exact hload

theorem tick_eq_self_iff : s.tick now = s ↔ ∀ due, s.nextTick = some due → now < due := by
  rw [lt_nextTick_iff]
  constructor
  · intro h
    obtain ⟨hfade, hload⟩ := s.tick_deadlines now
    rw [h] at hfade hload
    constructor
    · cases hdue : isDue s.crossfadeDue now with
      | false => rfl
      | true =>
        rw [hdue, if_pos rfl] at hfade
        rw [hfade] at hdue
        cases hdue
    · cases hdue : isDue s.loadDue now with
      | false => rfl
      | true =>
        rw [hdue, if_pos rfl] at hload
        rw [hload] at hdue
        cases hdue
  · rintro ⟨hfade, hload⟩
    simp [tick, endCrossfade, expireLoad, hfade, hload]

theorem Placed.nextTick_tick (h : s.Placed) (hdue : s.nextTick = some due) (hle : due ≤ now) :
    (s.tick now).nextTick = none := by
  obtain ⟨hfade, hload⟩ := s.tick_deadlines now
  rw [nextTick_eq_none_iff, hfade, hload]
  rcases h.coherent.deadlines with hnone | hnone
  · have hsome : s.loadDue = some due := by simpa [nextTick, hnone] using hdue
    have hpast : isDue s.loadDue now = true := isDue_iff.2 ⟨due, hsome, hle⟩
    rw [hpast, hnone]
    exact ⟨ite_self _, rfl⟩
  · have hsome : s.crossfadeDue = some due := by
      rw [← hdue, nextTick, hnone]
      cases s.crossfadeDue <;> rfl
    have hpast : isDue s.crossfadeDue now = true := isDue_iff.2 ⟨due, hsome, hle⟩
    rw [hpast, hnone]
    exact ⟨rfl, ite_self _⟩

end LivePreview.Session
