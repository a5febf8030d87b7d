import LivePreview.Proofs.Session.Update

/-!
Every load, taken or refused, every teardown, and closing take a new generation each.
-/

namespace LivePreview

def EngineAct.generation? : EngineAct → Option Generation
  | .loaded generation _ => some generation
  | .refused generation _ _ => some generation
  | .tornDown => none

namespace Host

variable {ε : Type}

theorem attempts_teardownActs (host : Host ε) :
    host.teardownActs.filterMap EngineAct.generation? = [] := by
  unfold teardownActs
  split <;> rfl

theorem attempts_loadActs [Engine ε] (host : Host ε) (document : Document) :
    (host.loadActs document).filterMap EngineAct.generation? = [host.generation + 1] := by
  unfold loadActs
  split <;> rfl

end Host

namespace Session

variable {ε : Type} [Engine ε] {s t : Session ε}

def advance (s : Session ε) : SessionCall ε → Nat
  | .update source token _ =>
      if s.host.closed then 0
      else if source.isEmpty then 1
      else if s.source = some source then
        if s.asksRefresh token then 2 else 0
      else 1
  | .close => if s.host.closed then 0 else 1
  | _ => 0

def advances : Session ε → List (SessionCall ε) → Nat
  | _, [] => 0
  | s, call :: calls => s.advance call + advances (s.step call) calls

/-- The generations of the loads that the engine was asked for, whether it took them or not. -/
def attempts (s : Session ε) (calls : List (SessionCall ε)) : List Generation :=
  (s.acts calls).filterMap EngineAct.generation?

theorem advances_append (s : Session ε) (before after : List (SessionCall ε)) :
    s.advances (before ++ after) = s.advances before + (s.run before).advances after := by
  induction before generalizing s with
  | nil => simp [advances]
  | cons call before ih => simp [advances, ih, Nat.add_assoc]

theorem attempts_cons (s : Session ε) (call : SessionCall ε) (calls : List (SessionCall ε)) :
    s.attempts (call :: calls) =
      (s.actsOf call).filterMap EngineAct.generation? ++ (s.step call).attempts calls := by
  simp [attempts, acts]

theorem toNat_add_one {generation : Generation} (h : generation.toNat + 1 < UInt64.size) :
    (generation + 1).toNat = generation.toNat + 1 := by
  rw [UInt64.toNat_add]
  exact Nat.mod_eq_of_lt h

theorem reload_generation (h : s.host.closed = false) (document : Document) (now : Nat) :
    (s.reload document now).2.generation = s.generation + 1 := by
  rcases reload_cases h document now with ⟨engine, -, hr⟩ | ⟨failure, engine, -, hr⟩
  · rw [hr]
    rfl
  · rw [hr]
    rfl

theorem Reloads.generation_eq {source : Source} {token : UInt64} (h : Reloads s source token t) :
    t.generation = if s.source = some source then s.generation + 1 else s.generation := by
  cases h with
  | refresh hu ht =>
    rw [if_pos hu]
    rfl
  | change hu =>
    rw [if_neg hu]
    rfl

theorem Reloads.advance_eq {source : Source} {token : UInt64} (h : Reloads s source token t)
    (hc : s.host.closed = false) (hs : source.isEmpty = false) (now : Nat) :
    s.advance (.update source token now) = if s.source = some source then 2 else 1 := by
  cases h with
  | refresh hu ht => simp [advance, hc, hs, hu, ht]
  | change hu => simp [advance, hc, hs, hu]

theorem update_generation {source : Source} {token : UInt64} {now : Nat}
    (few : s.generation.toNat + s.advance (.update source token now) < UInt64.size) :
    (s.update source token now).2.generation.toNat =
      s.generation.toNat + s.advance (.update source token now) := by
  rcases s.update_cases source token now with
    ⟨hc, hu⟩ | ⟨hc, hs, hu⟩ | ⟨hc, hs, he, ht, hu⟩ | ⟨hc, hs, t, ht, hu⟩
  · simp [hu, advance, hc]
  · simp only [advance, hc, hs, Bool.false_eq_true, if_false, if_true] at few ⊢
    rw [hu]
    exact toNat_add_one few
  · simp only [hu, advance, hc, hs, he, ht, Bool.false_eq_true, if_false, if_true]
    rfl
  · rw [ht.advance_eq hc hs] at few ⊢
    rw [hu, reload_generation (by rw [ht.closed_eq, hc]), ht.generation_eq]
    split at few
    · have hone : (s.generation + 1).toNat = s.generation.toNat + 1 := toNat_add_one (by omega)
      rw [if_pos ‹_›, if_pos ‹_›, toNat_add_one (by omega), hone]
    · rw [if_neg ‹_›, if_neg ‹_›]
      exact toNat_add_one few

theorem step_generation (call : SessionCall ε)
    (few : s.generation.toNat + s.advance call < UInt64.size) :
    (s.step call).generation.toNat = s.generation.toNat + s.advance call := by
  cases call with
  | update source token now => exact update_generation few
  | handle event now => exact congrArg (·.generation.toNat) (s.handle_host event now)
  | tick now => exact congrArg (·.generation.toNat) (s.tick_host now)
  | close =>
    cases hc : s.host.closed with
    | true => simp [step, close, advance, hc]
    | false =>
      simp only [advance, hc, Bool.false_eq_true, if_false] at few
      simp only [step, close, advance, hc, Host.close, Bool.false_eq_true, if_false]
      exact toNat_add_one few
  | engineMoves move => rfl

theorem run_generation (calls : List (SessionCall ε))
    (few : s.generation.toNat + s.advances calls < UInt64.size) :
    (s.run calls).generation.toNat = s.generation.toNat + s.advances calls := by
  induction calls generalizing s with
  | nil => rfl
  | cons call calls ih =>
    rw [advances] at few ⊢
    have hstep := step_generation (s := s) call (by omega)
    rw [run_cons, ih (by omega), hstep, Nat.add_assoc]

theorem attempts_step (s : Session ε) (call : SessionCall ε) :
    (s.actsOf call).filterMap EngineAct.generation? = [] ∨
      0 < s.advance call ∧
        (s.actsOf call).filterMap EngineAct.generation? = [(s.step call).generation] := by
  cases call with
  | update source token now =>
    rcases s.update_cases source token now with
      ⟨hc, -⟩ | ⟨hc, hs, -⟩ | ⟨hc, hs, he, ht, -⟩ | ⟨hc, hs, t, ht, hu⟩
    · simp [actsOf_update, hc]
    · left
      rw [actsOf_update, hc, hs]
      exact Host.attempts_teardownActs s.host
    · simp [actsOf_update, hc, hs, he, ht]
    · right
      constructor
      · rw [ht.advance_eq hc hs]
        split <;> omega
      · have hgeneration : (s.update source token now).2.generation = t.generation + 1 := by
          rw [hu, reload_generation (by rw [ht.closed_eq, hc])]
        change _ = [(s.update source token now).2.generation]
        rw [hgeneration, actsOf_of_reloads hc hs ht, List.filterMap_append,
          Host.attempts_loadActs]
        split
        · rw [Host.attempts_teardownActs]
          rfl
        · rfl
  | handle event now => exact .inl (by rw [actsOf_handle]; rfl)
  | tick now => exact .inl (by rw [actsOf_tick]; rfl)
  | close =>
    left
    rw [actsOf_close]
    split
    · rfl
    · exact Host.attempts_teardownActs s.host
  | engineMoves move => exact .inl rfl

theorem mem_attempts {calls : List (SessionCall ε)} {generation : Generation}
    (few : s.generation.toNat + s.advances calls < UInt64.size)
    (h : generation ∈ s.attempts calls) :
    s.generation < generation ∧ generation ≤ (s.run calls).generation := by
  simp only [UInt64.lt_iff_toNat_lt, UInt64.le_iff_toNat_le]
  rw [run_generation calls few]
  induction calls generalizing s with
  | nil => cases h
  | cons call calls ih =>
    rw [advances] at few ⊢
    have hstep := step_generation (s := s) call (by omega)
    rw [attempts_cons, List.mem_append] at h
    rcases h with h | h
    · rcases s.attempts_step call with hnone | ⟨hpos, hone⟩
      · rw [hnone] at h
        cases h
      · rw [hone, List.mem_singleton] at h
        rw [h, hstep]
        omega
    · have := ih (s := s.step call) (by omega) h
      omega

theorem pairwise_attempts {calls : List (SessionCall ε)}
    (few : s.generation.toNat + s.advances calls < UInt64.size) :
    (s.attempts calls).Pairwise (· < ·) := by
  induction calls generalizing s with
  | nil => exact .nil
  | cons call calls ih =>
    rw [advances] at few
    have hstep := step_generation (s := s) call (by omega)
    have hcalls := ih (s := s.step call) (by omega)
    rw [attempts_cons]
    rcases s.attempts_step call with hnone | ⟨-, hone⟩
    · rw [hnone]
      exact hcalls
    · rw [hone]
      exact .cons (fun generation h => (mem_attempts (by omega) h).1) hcalls

end Session

end LivePreview
