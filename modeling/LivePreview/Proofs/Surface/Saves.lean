import Mathlib.Logic.Relation
import LivePreview.Surface.Watch
import LivePreview.Proofs.Surface.Incarnation

/-!
Saves of a watched file. What the loop hears of once it has begun to read is kept for the next turn,
so it never rests on a text that a later save has replaced.
-/

namespace LivePreview.Surface

inductive NoticeKind where
  | unspecified
  | access
  | create
  | modify
  | remove
  | other
  deriving DecidableEq, Repr

inductive Notice where
  | event (kind : NoticeKind) (paths : List String)
  | failed

def Notice.IsSave (path : String) : Notice → Prop
  | .event kind paths => (kind = .create ∨ kind = .modify) ∧
      ∃ named ∈ paths, Watch.fileName named = Watch.fileName path
  | .failed => False

namespace Watch

def hears (watch : Watch) : Notice → Bool
  | .event kind paths =>
      paths.any (fun named => fileName named == fileName watch.path) &&
        (kind == .modify || kind == .create)
  | .failed => true

def command (path text : String) : Command :=
  .update ⟨path, text⟩ none

def sends (watch : Watch) (text : Option String) (registry : Registry) : List Command :=
  (text.toList.map (command watch.path)).filter fun command =>
    (registry.send defaultSurface command).isOk

variable {watch : Watch} {text : Option String} {registry : Registry}

theorem hears_of_isSave {notice : Notice} (h : notice.IsSave watch.path) :
    watch.hears notice = true := by
  cases notice with
  | failed => rfl
  | event kind paths =>
    obtain ⟨hkind, named, hmem, hname⟩ := h
    simp only [hears, Bool.and_eq_true, List.any_eq_true, Bool.or_eq_true, beq_iff_eq]
    exact ⟨⟨named, hmem, hname⟩, hkind.symm⟩

theorem feed_cases (watch : Watch) (text : Option String) (registry : Registry) :
    (watch.feed text registry = (watch, registry.run
          ((text.toList.map (command watch.path)).map (.send defaultSurface))) ∧
        watch.sends text registry = text.toList.map (command watch.path)) ∨
      (watch.feed text registry = ({ watch with active := false }, registry) ∧
        watch.sends text registry = []) := by
  cases text with
  | none => exact .inl ⟨rfl, rfl⟩
  | some text =>
    cases hsend : registry.send defaultSurface (.update ⟨watch.path, text⟩ none) with
    | ok next =>
      left
      simp [feed, sends, command, hsend, Except.isOk, Except.toBool, Registry.run, Registry.call,
        Except.toOption]
    | error error =>
      right
      simp [feed, sends, command, hsend, Except.isOk, Except.toBool]

theorem feed_registry (watch : Watch) (text : Option String) (registry : Registry) :
    (watch.feed text registry).2 =
      registry.run ((watch.sends text registry).map (.send defaultSurface)) := by
  rcases watch.feed_cases text registry with ⟨hfeed, hsends⟩ | ⟨hfeed, hsends⟩ <;>
    simp [hfeed, hsends, Registry.run]

theorem feed_path (watch : Watch) (text : Option String) (registry : Registry) :
    (watch.feed text registry).1.path = watch.path := by
  rcases watch.feed_cases text registry with ⟨hfeed, -⟩ | ⟨hfeed, -⟩ <;> simp [hfeed]

theorem sends_le (watch : Watch) (text : Option String) (registry : Registry) :
    watch.sends text registry <+: text.toList.map (command watch.path) := by
  rcases watch.feed_cases text registry with ⟨-, hsends⟩ | ⟨-, hsends⟩ <;> simp [hsends]

theorem sends_of_active (h : (watch.feed text registry).1.active = true) :
    watch.sends text registry = text.toList.map (command watch.path) := by
  rcases watch.feed_cases text registry with ⟨-, hsends⟩ | ⟨hfeed, -⟩
  · exact hsends
  · rw [hfeed] at h
    cases h

end Watch

/-- How far the loop has come: it reads, and has until then met these contents; it has a text to
give; it waits for a change; it forgets the changes behind the first; or it has given up. -/
inductive WatchPhase where
  | reading (met : List String)
  | feeding (text : Option String)
  | waiting
  | draining
  | stopped

/-- A read that has ended, and the contents that the file has had since the read before it, from the
one that it had when that read ended to the one that it had when this did. -/
structure Reading where
  text : Option String
  since : List String

def Reading.commands (path : String) (readings : List Reading) : List Command :=
  readings.flatMap fun reading => reading.text.toList.map (Watch.command path)

theorem Reading.commands_concat (path : String) (readings : List Reading) (reading : Reading) :
    Reading.commands path (readings ++ [reading]) =
      Reading.commands path readings ++ reading.text.toList.map (Watch.command path) := by
  rw [commands, List.flatMap_append, List.flatMap_singleton, commands]

/-- What reaches the registry: a call of anyone else, or a command that the loop gives. -/
inductive Told where
  | other (call : SurfaceCall)
  | given (command : Command)

namespace Told

def call : Told → SurfaceCall
  | .other call => call
  | .given command => .send defaultSurface command

def given? : Told → Option Command
  | .other _ => none
  | .given command => some command

theorem map_call_given (commands : List Command) :
    (commands.map given).map call = commands.map (.send defaultSurface) :=
  List.map_map

theorem filterMap_given (commands : List Command) :
    (commands.map given).filterMap given? = commands := by
  rw [List.filterMap_map]
  exact List.filterMap_some

end Told

/-- The loop, the file and the notices on their way. What the loop has heard is only counted. -/
structure Watching where
  watch : Watch
  registry : Registry
  content : String
  phase : WatchPhase := .reading [content]
  notices : List Notice := []
  heard : Nat := 0
  history : List String := [content]
  since : List String := [content]
  readings : List Reading := []
  sent : List Command := []
  told : List Told := []

def WatchPhase.meet (content : String) : WatchPhase → WatchPhase
  | .reading met => .reading (met ++ [content])
  | phase => phase

def WatchPhase.held (last : Option String) : WatchPhase → List String
  | .reading met => met
  | .feeding text => text.toList
  | .waiting => last.toList
  | .draining | .stopped => []

def WatchPhase.due : WatchPhase → List String
  | .feeding text => text.toList
  | _ => []

namespace WatchPhase

variable {content : String} {phase : WatchPhase}

theorem meet_eq_reading {met : List String} :
    phase.meet content = .reading met ↔
      ∃ before, phase = .reading before ∧ met = before ++ [content] := by
  cases phase <;> simp [meet, eq_comm]

theorem meet_eq_feeding {text : Option String} :
    phase.meet content = .feeding text ↔ phase = .feeding text := by
  cases phase <;> simp [meet]

theorem meet_eq_stopped : phase.meet content = .stopped ↔ phase = .stopped := by
  cases phase <;> simp [meet]

theorem due_meet : (phase.meet content).due = phase.due := by
  cases phase <;> rfl

end WatchPhase

namespace Watching

def Saving (path : String) (notices : List Notice) : Prop :=
  ∃ notice ∈ notices, notice.IsSave path

inductive Step : Watching → Watching → Prop
  | save (state : Watching) (content : String) (notices : List Notice) :
      Saving state.watch.path notices →
      Step state { state with
        content := content
        phase := state.phase.meet content
        notices := state.notices ++ notices
        history := state.history ++ [content]
        since := state.since ++ [content] }
  -- Notices overtake and absorb each other, and others come, but while saves are told of one stays.
  | mix (state : Watching) (notices : List Notice) :
      (Saving state.watch.path state.notices → Saving state.watch.path notices) →
      Step state { state with notices := notices }
  | deliver (state : Watching) (notice : Notice) (notices : List Notice) :
      state.notices = notice :: notices →
      Step state { state with
        notices := notices
        heard := state.heard + (state.watch.hears notice).toNat }
  | move (state : Watching) (c : SurfaceCall) :
      Step state { state with
        registry := state.registry.call c
        told := state.told ++ [.other c] }
  | read (state : Watching) (met : List String) (text : Option String) :
      state.phase = .reading met → (∀ found ∈ text, found ∈ met) →
      Step state { state with
        phase := .feeding text
        since := [state.content]
        readings := state.readings ++ [⟨text, state.since⟩] }
  | feed (state : Watching) (text : Option String) : state.phase = .feeding text →
      Step state { state with
        watch := (state.watch.feed text state.registry).1
        registry := (state.watch.feed text state.registry).2
        phase := if (state.watch.feed text state.registry).1.active then .waiting else .stopped
        sent := state.sent ++ state.watch.sends text state.registry
        told := state.told ++ (state.watch.sends text state.registry).map .given }
  | wake (state : Watching) (heard : Nat) : state.phase = .waiting → state.heard = heard + 1 →
      Step state { state with phase := .draining, heard := heard }
  | drain (state : Watching) (heard : Nat) : state.phase = .draining → state.heard = heard + 1 →
      Step state { state with heard := heard }
  | again (state : Watching) : state.phase = .draining → state.heard = 0 →
      Step state { state with phase := .reading [state.content] }

def Reaches : Watching → Watching → Prop :=
  Relation.ReflTransGen Step

variable {path : String} {registry : Registry} {state next : Watching}

/-- The loop has heard of a change that it has not taken up, or is still to hear of a save. -/
def Stirred (path : String) (state : Watching) : Prop :=
  0 < state.heard ∨ Saving path state.notices

def lastText (state : Watching) : Option String :=
  state.readings.getLast?.bind (·.text)

/-- A text that the loop holds is the content, or the loop is going to read again. All that it has
read is given in order, until it gives up, and has reached the registry in its turn. -/
structure Sound (path : String) (registry : Registry) (state : Watching) : Prop where
  path_eq : state.watch.path = path
  since_ends : state.since.getLast? = some state.content
  history_eq : state.history = state.readings.flatMap (·.since.dropLast) ++ state.since
  met_mem : ∀ met, state.phase = .reading met → ∀ text ∈ met, text ∈ state.since
  text_mem : ∀ reading ∈ state.readings, ∀ text ∈ reading.text, text ∈ reading.since
  last_eq : ∀ text, state.phase = .feeding text → state.lastText = text
  current : ∀ text ∈ state.phase.held state.lastText, text = state.content ∨ state.Stirred path
  given : state.phase ≠ .stopped → state.sent ++ state.phase.due.map (Watch.command path) =
    Reading.commands path state.readings
  sent_le : state.sent <+: Reading.commands path state.readings
  given_eq : state.told.filterMap Told.given? = state.sent
  registry_eq : state.registry = registry.run (state.told.map Told.call)

def start (path content : String) (notices : List Notice) (registry : Registry) : Watching :=
  { watch := ⟨path, true⟩, registry, content, notices }

theorem sound_start (path content : String) (notices : List Notice) (registry : Registry) :
    (start path content notices registry).Sound path registry where
  path_eq := rfl
  since_ends := rfl
  history_eq := rfl
  met_mem := by
    rintro met ⟨⟩ text hmem
    exact hmem
  text_mem := by
    intro reading hmem
    cases hmem
  last_eq := by
    intro text h
    cases h
  current text hmem := .inl (List.mem_singleton.1 hmem)
  given _ := rfl
  sent_le := List.prefix_rfl
  given_eq := rfl
  registry_eq := rfl

theorem Sound.given_at (h : state.Sound path registry) {phase : WatchPhase}
    (hphase : state.phase = phase) (hne : phase ≠ .stopped) :
    state.sent ++ phase.due.map (Watch.command path) = Reading.commands path state.readings := by
  subst hphase
  exact h.given hne

theorem Sound.save (h : state.Sound path registry) (content : String) {notices : List Notice}
    (hsaving : Saving path notices) :
    Sound path registry { state with
      content := content
      phase := state.phase.meet content
      notices := state.notices ++ notices
      history := state.history ++ [content]
      since := state.since ++ [content] } :=
  { h with
    since_ends := List.getLast?_concat
    history_eq := by rw [h.history_eq, List.append_assoc]
    met_mem := by
      intro met hmet text hmem
      obtain ⟨before, hphase, rfl⟩ := WatchPhase.meet_eq_reading.1 hmet
      rcases List.mem_append.1 hmem with hmem | hmem
      · exact List.mem_append_left _ (h.met_mem before hphase text hmem)
      · exact List.mem_append_right _ hmem
    last_eq text hphase := h.last_eq text (WatchPhase.meet_eq_feeding.1 hphase)
    current := by
      -- Whatever is held, the loop is still to hear of this save.
      intro text _
      obtain ⟨notice, hmem, hsave⟩ := hsaving
      exact .inr (.inr ⟨notice, List.mem_append_right _ hmem, hsave⟩)
    given := by
      rw [WatchPhase.due_meet, Ne, WatchPhase.meet_eq_stopped]
      exact h.given }

theorem Sound.of_stirred (h : state.Sound path registry) (notices : List Notice) (heard : Nat)
    (hstirred : state.Stirred path → Stirred path { state with notices, heard }) :
    Sound path registry { state with notices, heard } :=
  { h with
    current text hmem := (h.current text hmem).imp_right hstirred }

theorem Sound.deliver (h : state.Sound path registry) {notice : Notice} {notices : List Notice}
    (hnotices : state.notices = notice :: notices) :
    Sound path registry { state with
      notices := notices
      heard := state.heard + (state.watch.hears notice).toNat } := by
  refine h.of_stirred _ _ ?_
  rintro (hheard | ⟨saved, hmem, hsave⟩)
  · exact .inl (Nat.add_pos_left hheard _)
  · rw [hnotices] at hmem
    rcases List.mem_cons.1 hmem with rfl | hmem
    · -- The save itself is told, so it is heard of.
      refine .inl (Nat.add_pos_right _ ?_)
      rw [Watch.hears_of_isSave (h.path_eq ▸ hsave)]
      exact Nat.one_pos
    · exact .inr ⟨saved, hmem, hsave⟩

theorem Sound.move (h : state.Sound path registry) (c : SurfaceCall) :
    Sound path registry { state with
      registry := state.registry.call c
      told := state.told ++ [.other c] } :=
  { h with
    given_eq := by
      rw [List.filterMap_append, h.given_eq]
      exact List.append_nil _
    registry_eq := by
      rw [List.map_append, Registry.run_append, ← h.registry_eq]
      rfl }

theorem Sound.read (h : state.Sound path registry) {met : List String} {text : Option String}
    (hphase : state.phase = .reading met) (hfound : ∀ found ∈ text, found ∈ met) :
    Sound path registry { state with
      phase := .feeding text
      since := [state.content]
      readings := state.readings ++ [⟨text, state.since⟩] } :=
  { h with
    since_ends := rfl
    history_eq := by
      obtain ⟨before, hsince⟩ := List.getLast?_eq_some_iff.1 h.since_ends
      rw [h.history_eq, List.flatMap_append, List.flatMap_singleton, List.append_assoc, hsince,
        List.dropLast_concat]
    met_mem := by
      rintro met ⟨⟩
    text_mem := by
      intro reading hmem found htext
      rcases List.mem_append.1 hmem with hmem | hmem
      · exact h.text_mem reading hmem found htext
      · rw [List.mem_singleton] at hmem
        subst hmem
        exact h.met_mem met hphase found (hfound found htext)
    last_eq := by
      rintro _ ⟨⟩
      simp [lastText]
    current := by
      intro found hmem
      refine h.current found ?_
      rw [hphase]
      exact hfound found (Option.mem_toList.1 hmem)
    given := by
      intro _
      rw [Reading.commands_concat, ← h.given_at hphase (by simp)]
      simp [WatchPhase.due]
    sent_le := by
      rw [Reading.commands_concat]
      exact h.sent_le.trans (List.prefix_append _ _) }

theorem Sound.feed (h : state.Sound path registry) {text : Option String}
    (hphase : state.phase = .feeding text) :
    Sound path registry { state with
      watch := (state.watch.feed text state.registry).1
      registry := (state.watch.feed text state.registry).2
      phase := if (state.watch.feed text state.registry).1.active then .waiting else .stopped
      sent := state.sent ++ state.watch.sends text state.registry
      told := state.told ++ (state.watch.sends text state.registry).map .given } :=
  { h with
    path_eq := (Watch.feed_path state.watch text state.registry).trans h.path_eq
    met_mem := by
      intro met hmet
      split at hmet <;> cases hmet
    last_eq := by
      intro text hfeeding
      split at hfeeding <;> cases hfeeding
    current := by
      intro found hmem
      refine h.current found ?_
      rw [hphase]
      split at hmem
      · rwa [← h.last_eq text hphase]
      · cases hmem
    given := by
      intro hne
      have hactive : (state.watch.feed text state.registry).1.active = true :=
        Decidable.byContradiction fun hrefused => hne (if_neg hrefused)
      rw [Watch.sends_of_active hactive, h.path_eq, if_pos hactive]
      exact (List.append_nil _).trans (h.given_at hphase (by simp))
    sent_le := by
      rw [← h.given_at hphase (by simp), ← h.path_eq]
      exact (List.prefix_append_right_inj _).2 (Watch.sends_le _ text _)
    given_eq := by
      rw [List.filterMap_append, h.given_eq, Told.filterMap_given]
    registry_eq := by
      rw [List.map_append, Told.map_call_given, Registry.run_append, ← h.registry_eq]
      exact state.watch.feed_registry text state.registry }

theorem Sound.rest (h : state.Sound path registry) {phase : WatchPhase} (heard : Nat)
    (hrest : state.phase = .waiting ∨ state.phase = .draining)
    (hphase : phase = .draining ∨ phase = .reading [state.content]) :
    Sound path registry { state with phase, heard } :=
  { h with
    met_mem := by
      rintro met rfl text hmem
      rcases hphase with ⟨⟨⟩⟩ | ⟨⟨⟩⟩
      rw [List.mem_singleton.1 hmem]
      exact List.mem_of_getLast? h.since_ends
    last_eq := by
      rintro text rfl
      rcases hphase with ⟨⟨⟩⟩ | ⟨⟨⟩⟩
    current := by
      intro text hmem
      -- What was heard may be forgotten, because the loop holds nothing until it reads again.
      rcases hphase with rfl | rfl
      · cases hmem
      · exact .inl (List.mem_singleton.1 hmem)
    given := by
      intro _
      have hgiven : state.sent ++ [] = Reading.commands path state.readings := by
        rcases hrest with hrest | hrest <;> exact h.given_at hrest (by simp)
      rcases hphase with rfl | rfl <;> exact hgiven }

theorem Sound.step (h : state.Sound path registry) (hstep : Step state next) :
    next.Sound path registry := by
  cases hstep with
  | save content notices hsaving => exact h.save content (h.path_eq ▸ hsaving)
  | mix notices hkept =>
    rw [h.path_eq] at hkept
    exact h.of_stirred notices state.heard (·.imp_right hkept)
  | deliver notice notices hnotices => exact h.deliver hnotices
  | move c => exact h.move c
  | read met text hphase hfound => exact h.read hphase hfound
  | feed text hphase => exact h.feed hphase
  | wake heard hphase _ => exact h.rest heard (.inl hphase) (.inl rfl)
  | drain heard hphase _ => exact h.rest heard (.inr hphase) (.inl hphase)
  | again hphase _ => exact h.rest state.heard (.inr hphase) (.inr rfl)

theorem Sound.reaches (h : state.Sound path registry) (hreaches : Reaches state next) :
    next.Sound path registry := by
  induction hreaches with
  | refl => exact h
  | tail _ hstep ih => exact ih.step hstep

theorem getLast?_commands {readings : List Reading} {text : String}
    (h : readings.getLast?.bind (·.text) = some text) :
    (Reading.commands path readings).getLast? = some (Watch.command path text) := by
  obtain ⟨reading, hlast, htext⟩ := Option.bind_eq_some_iff.1 h
  obtain ⟨before, rfl⟩ := List.getLast?_eq_some_iff.1 hlast
  rw [Reading.commands_concat, htext]
  exact List.getLast?_concat

/-- A loop that waits, with no change to hear of, has given the content of the file if it could read
it last; and all it has ever given it had read, each time a content since the time before. What the
file has been between the readings makes up its history. The registry is what it has come to by the
calls of others and by what the loop has given between them. -/
theorem last_save_given (path content : String) (notices : List Notice) (registry : Registry)
    (state : Watching) (reached : Reaches (start path content notices registry) state) :
    (state.phase = .waiting → state.heard = 0 →
      (∀ notice ∈ state.notices, state.watch.hears notice = false) → state.lastText.isSome →
        state.sent.getLast? = some (.update ⟨path, state.content⟩ none)) ∧
      state.sent <+: Reading.commands path state.readings ∧
      (∀ reading ∈ state.readings, ∀ text ∈ reading.text, text ∈ reading.since) ∧
      state.history = state.readings.flatMap (·.since.dropLast) ++ state.since ∧
      state.told.filterMap Told.given? = state.sent ∧
      state.registry = registry.run (state.told.map Told.call) := by
  have h := (sound_start path content notices registry).reaches reached
  refine ⟨?_, h.sent_le, h.text_mem, h.history_eq, h.given_eq, h.registry_eq⟩
  intro waits unheard quiet hread
  obtain ⟨text, htext⟩ := Option.isSome_iff_exists.1 hread
  have hcalm : ¬ state.Stirred path := by
    rintro (hheard | ⟨saved, hmem, hsave⟩)
    · exact Nat.ne_of_gt hheard unheard
    · have hhears := Watch.hears_of_isSave (h.path_eq ▸ hsave)
      rw [quiet saved hmem] at hhears
      cases hhears
  have hcurrent : text = state.content := by
    refine (h.current text ?_).resolve_right hcalm
    rw [waits, htext]
    exact List.mem_singleton_self text
  have hsent : state.sent ++ [] = Reading.commands path state.readings :=
    h.given_at waits (by simp)
  rw [← List.append_nil state.sent, hsent, getLast?_commands htext, hcurrent]
  rfl

/-- The file is saved while it is read. The old text is given, and then the new one, because the
notice of the save has come after the reading began. -/
theorem given_when_saved_while_read : ∃ state,
    Reaches (start "App.jsx" "one" [] (Registry.run { options := {}, timing := {} }
        [.openSurface defaultSurface])) state ∧
      state.phase = .waiting ∧ state.heard = 0 ∧ state.notices = [] ∧
      state.readings = [⟨some "one", ["one", "two"]⟩, ⟨some "two", ["two"]⟩] ∧
      state.sent.getLast? = some (.update ⟨"App.jsx", "two"⟩ none) := by
  have reading : Reaches (start "App.jsx" "one" [] (Registry.run { options := {}, timing := {} }
      [.openSurface defaultSurface])) _ := .refl
  have saved := reading.tail (.save _ "two" [.event .modify ["App.jsx"]]
    ⟨_, List.mem_singleton_self _, .inr rfl, _, List.mem_singleton_self _, rfl⟩)
  have old := (saved.tail (.read _ _ (some "one") rfl (by simp))).tail (.feed _ _ rfl)
  have told := (old.tail (.deliver _ _ _ rfl)).tail (.wake _ _ rfl rfl)
  have again := told.tail (.again _ rfl rfl)
  have new := (again.tail (.read _ _ (some "two") rfl (by simp))).tail (.feed _ _ rfl)
  exact ⟨_, new, rfl, rfl, rfl, rfl,
    (last_save_given "App.jsx" "one" [] _ _ new).1 rfl rfl (by rintro _ ⟨⟩) rfl⟩

end Watching

end LivePreview.Surface
