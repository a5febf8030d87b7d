import Mathlib.Logic.Relation
import LivePreview.Surface.Registry
import LivePreview.Proofs.Surface.Board

/-!
Pages that join late. A page first listens to the events, then looks at the view, then at the slot,
while the actor goes on writing. What it has missed it finds on the board, and what it finds twice
it hears again later.
-/

namespace LivePreview

@[ext]
structure Picture where
  view : Option View := none
  loaded : Option Generation := none

namespace PageEvent

def view? : PageEvent → Option (Option View)
  | .view shown => some (some shown)
  | _ => none

def loaded? : PageEvent → Option (Option Generation)
  | .load generation => some (some generation)
  | .teardown => some none
  | .view _ => none

def ofSlot : Option (Generation × Document) → PageEvent
  | some (generation, _) => .load generation
  | none => .teardown

variable {α : Type}

def latest (pick : PageEvent → Option α) (events : List PageEvent) : Option α :=
  (events.filterMap pick).getLast?

theorem latest_append (pick : PageEvent → Option α) (before after : List PageEvent) :
    latest pick (before ++ after) = (latest pick after).or (latest pick before) := by
  rw [latest, List.filterMap_append, List.getLast?_append]
  rfl

theorem latest_drop {pick : PageEvent → Option α} {sent due : List PageEvent}
    {opening found final : α} (position : Nat)
    (htold : (latest pick (sent ++ due)).getD opening = final)
    (hfound : (latest pick due).getD found = final) :
    (latest pick (sent.drop position ++ due)).getD found = final := by
  rw [latest_append] at htold ⊢
  cases hdue : latest pick due with
  | some last => rwa [hdue] at hfound
  | none =>
    rw [hdue] at hfound htold
    rw [Option.none_or] at htold ⊢
    cases hmissed : latest pick (sent.drop position) with
    | none => exact hfound
    | some last =>
      -- The last event behind the position is the last event of all.
      rwa [← List.take_append_drop position sent, latest_append, hmissed] at htold

end PageEvent

namespace Picture

open PageEvent (latest)

def see (picture : Picture) : PageEvent → Picture
  | .view shown => { picture with view := some shown }
  | .load generation => { picture with loaded := some generation }
  | .teardown => { picture with loaded := none }

def seeAll (picture : Picture) (events : List PageEvent) : Picture :=
  events.foldl see picture

def ofEvents (events : List PageEvent) : Picture :=
  ({} : Picture).seeAll events

def ofBoard (board : Board) : Picture :=
  ⟨some board.view, board.slot.map (·.1)⟩

theorem seeAll_append (picture : Picture) (before after : List PageEvent) :
    picture.seeAll (before ++ after) = (picture.seeAll before).seeAll after :=
  List.foldl_append

theorem ofEvents_append (before after : List PageEvent) :
    ofEvents (before ++ after) = (ofEvents before).seeAll after :=
  seeAll_append {} before after

theorem seeAll_eq (picture : Picture) (events : List PageEvent) :
    picture.seeAll events =
      ⟨(latest PageEvent.view? events).getD picture.view,
        (latest PageEvent.loaded? events).getD picture.loaded⟩ := by
  induction events generalizing picture with
  | nil => rfl
  | cons event events ih =>
    change (picture.see event).seeAll events = _
    rw [ih, ← List.singleton_append, PageEvent.latest_append, PageEvent.latest_append]
    cases event <;>
      cases latest PageEvent.view? events <;> cases latest PageEvent.loaded? events <;> rfl

theorem seeAll_view {p q : Picture} (h : p.view = q.view) (events : List PageEvent) :
    (p.seeAll events).view = (q.seeAll events).view := by
  rw [seeAll_eq, seeAll_eq, h]

theorem seeAll_loaded {p q : Picture} (h : p.loaded = q.loaded) (events : List PageEvent) :
    (p.seeAll events).loaded = (q.seeAll events).loaded := by
  rw [seeAll_eq, seeAll_eq, h]

theorem seeAll_drop {sent due : List PageEvent} {opening found final : Picture} (position : Nat)
    (htold : opening.seeAll (sent ++ due) = final) (hfound : found.seeAll due = final) :
    found.seeAll (sent.drop position ++ due) = final := by
  -- Of each kind the latest event decides, and what is dropped comes before all that is due.
  subst hfound
  rw [seeAll_eq, seeAll_eq, Picture.mk.injEq] at htold
  rw [seeAll_eq, seeAll_eq, Picture.mk.injEq]
  exact ⟨PageEvent.latest_drop position htold.1 rfl, PageEvent.latest_drop position htold.2 rfl⟩

end Picture

namespace BoardWrite

def sent? : BoardWrite → Option PageEvent
  | .send event => some event
  | _ => none

/-- Each state is written just before the event that announces it. -/
inductive Announced : List BoardWrite → Prop
  | nil : Announced []
  | hold (slot : Option (Generation × Document)) {writes : List BoardWrite} :
      Announced writes → Announced (.hold slot :: .send (.ofSlot slot) :: writes)
  | publish (view : View) {writes : List BoardWrite} :
      Announced writes → Announced (.publish view :: .send (.view view) :: writes)

theorem Announced.append {before after : List BoardWrite} (hb : Announced before)
    (ha : Announced after) : Announced (before ++ after) := by
  induction hb with
  | nil => exact ha
  | hold slot _ ih => exact .hold slot ih
  | publish view _ ih => exact .publish view ih

theorem announced_acts (acts : List EngineAct) : Announced (acts.flatMap EngineAct.writes) := by
  induction acts with
  | nil => exact .nil
  | cons act acts ih =>
    rw [List.flatMap_cons]
    refine .append ?_ ih
    cases act with
    | loaded generation document => exact .hold (some (generation, document)) .nil
    | refused generation document failure => exact .nil
    | tornDown => exact .hold none .nil

theorem announced_writes (actor : Actor) (c : ActorCall) : Announced (actor.writes c) := by
  refine (announced_acts _).append ?_
  unfold View.announcement
  split
  · exact .nil
  · exact .publish _ .nil

theorem Announced.seeAll {writes : List BoardWrite} (h : Announced writes) (board : Board) :
    (Picture.ofBoard board).seeAll (writes.filterMap sent?) =
      Picture.ofBoard (board.writeAll writes) := by
  induction h generalizing board with
  | nil => rfl
  | hold slot _ ih =>
    have := ih ((board.write (.hold slot)).write (.send (.ofSlot slot)))
    cases slot <;> exact this
  | publish view _ ih => exact ih ((board.write (.publish view)).write (.send (.view view)))

/-- Announced writes, the first of which may have been done already. -/
inductive Due (board : Board) : List BoardWrite → Prop
  | whole {writes : List BoardWrite} : Announced writes → Due board writes
  | rest {event : PageEvent} {writes : List BoardWrite} : Announced writes →
      (Picture.ofBoard board).see event = Picture.ofBoard board →
      Due board (.send event :: writes)

theorem Due.seeAll {board : Board} {writes : List BoardWrite} (h : Due board writes) :
    (Picture.ofBoard board).seeAll (writes.filterMap sent?) =
      Picture.ofBoard (board.writeAll writes) := by
  cases h with
  | whole h => exact h.seeAll board
  | @rest event writes h hevent =>
    change ((Picture.ofBoard board).see event).seeAll _ = _
    rw [hevent]
    exact h.seeAll (board.write (.send event))

theorem Due.write {board : Board} {w : BoardWrite} {writes : List BoardWrite}
    (h : Due board (w :: writes)) : Due (board.write w) writes := by
  cases h with
  | whole h =>
    cases h with
    | hold slot h => exact .rest h (by cases slot <;> rfl)
    | publish view h => exact .rest h rfl
  | rest h _ => exact .whole h

end BoardWrite

/-- How far a page has come: it listens from a position on, then knows the view, then the slot as
well, and has its first events; from then on it receives what was sent behind its position. -/
inductive Joining where
  | outside
  | listening (position : Nat)
  | shown (position : Nat) (view : View)
  | joined (initial received : List PageEvent) (position : Nat)

structure Scene where
  actor : Actor
  pending : List BoardWrite := []
  board : Board
  page : Joining := .outside

namespace Scene

def opened (id : String) (options : Document.Options) (timing : Timing) : Scene :=
  { actor := .start id options timing, board := (Actor.start id options timing).board }

inductive Step : Scene → Scene → Prop
  | enqueue (scene : Scene) (command : Command) :
      Step scene { scene with actor := (scene.actor.call (.enqueue command)).actor }
  | act (scene : Scene) (c : ActorCall) : scene.pending = [] →
      Step scene { scene with
        actor := (scene.actor.call c).actor
        pending := scene.actor.writes c }
  | write (scene : Scene) (w : BoardWrite) (writes : List BoardWrite) :
      scene.pending = w :: writes →
      Step scene { scene with pending := writes, board := scene.board.write w }
  | listen (scene : Scene) : scene.page = .outside →
      Step scene { scene with page := .listening scene.board.sent.length }
  | look (scene : Scene) (position : Nat) : scene.page = .listening position →
      Step scene { scene with page := .shown position scene.board.view }
  | find (scene : Scene) (position : Nat) (view : View) : scene.page = .shown position view →
      Step scene { scene with
        page := .joined (.view view :: (scene.board.slot.map (.load ·.1)).toList) [] position }
  | receive (scene : Scene) (initial received : List PageEvent) (position : Nat)
      (event : PageEvent) : scene.page = .joined initial received position →
      scene.board.sent[position]? = some event →
      Step scene { scene with page := .joined initial (received ++ [event]) (position + 1) }

def Reaches : Scene → Scene → Prop :=
  Relation.ReflTransGen Step

variable {scene next : Scene}

def ahead (scene : Scene) (position : Nat) : List PageEvent :=
  scene.board.sent.drop position ++ scene.pending.filterMap BoardWrite.sent?

def picture (scene : Scene) : Picture :=
  .ofBoard scene.actor.board

/-- What a page knows, with what it has still to hear, is what the actor has come to. -/
def Informs (scene : Scene) : Joining → Prop
  | .outside => True
  | .listening position => position ≤ scene.board.sent.length
  | .shown position view => position ≤ scene.board.sent.length ∧
      (Picture.seeAll { view := some view } (scene.ahead position)).view = scene.picture.view
  | .joined initial received position => position ≤ scene.board.sent.length ∧
      Picture.ofEvents (initial ++ received ++ scene.ahead position) = scene.picture

structure Sound (opening : View) (scene : Scene) : Prop where
  current : scene.actor.Current
  board_eq : scene.board.writeAll scene.pending = scene.actor.board
  due : BoardWrite.Due scene.board scene.pending
  told : Picture.ofEvents (.view opening :: scene.ahead 0) = scene.picture
  informs : scene.Informs scene.page

theorem sound_opened (id : String) (options : Document.Options) (timing : Timing) :
    (opened id options timing).Sound (Actor.start id options timing).view :=
  ⟨Actor.current_start id options timing, rfl, .whole .nil, rfl, trivial⟩

variable {opening : View}

theorem Sound.found (h : scene.Sound opening) :
    (Picture.ofBoard scene.board).seeAll (scene.pending.filterMap BoardWrite.sent?) =
      scene.picture := by
  rw [h.due.seeAll, h.board_eq]
  rfl

theorem Sound.found_drop (h : scene.Sound opening) (position : Nat) :
    (Picture.ofBoard scene.board).seeAll (scene.ahead position) = scene.picture := by
  have htold := h.told
  rw [ahead, List.drop_zero, ← List.singleton_append, Picture.ofEvents_append] at htold
  exact Picture.seeAll_drop position htold h.found

theorem Informs.of_ahead {page : Joining} {events : List PageEvent} (h : scene.Informs page)
    (hlength : scene.board.sent.length ≤ next.board.sent.length)
    (hahead : ∀ position, position ≤ scene.board.sent.length →
      next.ahead position = scene.ahead position ++ events)
    (hpicture : next.picture = scene.picture.seeAll events) : next.Informs page := by
  cases page with
  | outside => trivial
  | listening position => exact Nat.le_trans h hlength
  | shown position view =>
    refine ⟨Nat.le_trans h.1 hlength, ?_⟩
    rw [hahead position h.1, hpicture, Picture.seeAll_append]
    exact Picture.seeAll_view h.2 events
  | joined initial received position =>
    refine ⟨Nat.le_trans h.1 hlength, ?_⟩
    rw [hahead position h.1, hpicture, ← List.append_assoc, Picture.ofEvents_append, h.2]

theorem Sound.of_ahead (h : scene.Sound opening) (events : List PageEvent)
    (hpage : next.page = scene.page) (hcurrent : next.actor.Current)
    (hboard : next.board.writeAll next.pending = next.actor.board)
    (hdue : BoardWrite.Due next.board next.pending)
    (hlength : scene.board.sent.length ≤ next.board.sent.length)
    (hahead : ∀ position, position ≤ scene.board.sent.length →
      next.ahead position = scene.ahead position ++ events)
    (hpicture : next.picture = scene.picture.seeAll events) : next.Sound opening where
  current := hcurrent
  board_eq := hboard
  due := hdue
  told := by
    rw [hahead 0 (Nat.zero_le _), hpicture, ← List.cons_append, Picture.ofEvents_append, h.told]
  informs := by
    rw [hpage]
    exact h.informs.of_ahead hlength hahead hpicture

theorem Sound.enqueue (h : scene.Sound opening) (command : Command) :
    Sound opening { scene with actor := (scene.actor.call (.enqueue command)).actor } := by
  have hboard : (scene.actor.call (.enqueue command)).actor.board = scene.actor.board := by
    rw [h.current.board_call, h.current.writes_of_quiet rfl]
    rfl
  exact h.of_ahead [] rfl (h.current.run [.enqueue command]) (h.board_eq.trans hboard.symm) h.due
    (Nat.le_refl _) (fun _ _ => (List.append_nil _).symm) (congrArg Picture.ofBoard hboard)

theorem Sound.act (h : scene.Sound opening) (c : ActorCall) (hp : scene.pending = []) :
    Sound opening { scene with
      actor := (scene.actor.call c).actor
      pending := scene.actor.writes c } := by
  have hboard : scene.board = scene.actor.board := by
    rw [← h.board_eq, hp]
    rfl
  have hcall : scene.board.writeAll (scene.actor.writes c) = (scene.actor.call c).actor.board := by
    rw [hboard, h.current.board_call]
  have hwrites := BoardWrite.announced_writes scene.actor c
  have hpicture : Picture.ofBoard (scene.actor.call c).actor.board =
      scene.picture.seeAll ((scene.actor.writes c).filterMap BoardWrite.sent?) := by
    rw [← hcall, ← hwrites.seeAll, picture, hboard]
  refine h.of_ahead _ rfl (h.current.run [c]) hcall (.whole hwrites) (Nat.le_refl _) ?_ hpicture
  intro position _
  rw [ahead, ahead, hp, List.filterMap_nil, List.append_nil]

theorem Sound.write (h : scene.Sound opening) {w : BoardWrite} {writes : List BoardWrite}
    (hp : scene.pending = w :: writes) :
    Sound opening { scene with pending := writes, board := scene.board.write w } := by
  have hlength : scene.board.sent.length ≤ (scene.board.write w).sent.length := by
    cases w <;> simp [Board.write]
  have hboard := h.board_eq
  have hdue := h.due
  rw [hp] at hboard hdue
  refine h.of_ahead [] rfl h.current hboard hdue.write hlength ?_ rfl
  -- A write only moves what is due to what was sent.
  intro position hposition
  rw [ahead, ahead, hp, List.append_nil]
  cases w with
  | hold slot => rfl
  | publish view => rfl
  | send event =>
    rw [Board.write, List.drop_append_of_le_length hposition, List.append_assoc]
    rfl

theorem Sound.look (h : scene.Sound opening) {position : Nat}
    (hp : scene.page = .listening position) :
    scene.Informs (.shown position scene.board.view) := by
  have hinforms := h.informs
  rw [hp] at hinforms
  refine ⟨hinforms, ?_⟩
  rw [← h.found_drop position]
  apply Picture.seeAll_view
  rfl

theorem Sound.find (h : scene.Sound opening) {position : Nat} {view : View}
    (hp : scene.page = .shown position view) :
    scene.Informs (.joined (.view view :: (scene.board.slot.map (.load ·.1)).toList) []
      position) := by
  have hinforms := h.informs
  rw [hp] at hinforms
  have hinitial : Picture.ofEvents (.view view :: (scene.board.slot.map (.load ·.1)).toList) =
      ⟨some view, scene.board.slot.map (·.1)⟩ := by
    cases scene.board.slot <;> rfl
  refine ⟨hinforms.1, ?_⟩
  rw [List.append_nil, Picture.ofEvents_append, hinitial, Picture.ext_iff]
  -- The view was right when it was looked at; the load is right as the slot stands now.
  constructor
  · rw [← hinforms.2]
    apply Picture.seeAll_view
    rfl
  · rw [← h.found_drop position]
    apply Picture.seeAll_loaded
    rfl

theorem Sound.receive (h : scene.Sound opening) {initial received : List PageEvent}
    {position : Nat} {event : PageEvent} (hp : scene.page = .joined initial received position)
    (hevent : scene.board.sent[position]? = some event) :
    scene.Informs (.joined initial (received ++ [event]) (position + 1)) := by
  have hinforms := h.informs
  rw [hp] at hinforms
  obtain ⟨hlt, rfl⟩ := List.getElem?_eq_some_iff.1 hevent
  refine ⟨hlt, ?_⟩
  have hahead : scene.ahead position =
      [scene.board.sent[position]] ++ scene.ahead (position + 1) := by
    rw [ahead, List.drop_eq_getElem_cons hlt]
    rfl
  rw [← hinforms.2, hahead]
  simp only [List.append_assoc]

theorem Sound.step (h : scene.Sound opening) (hstep : Step scene next) : next.Sound opening := by
  cases hstep with
  | enqueue command => exact h.enqueue command
  | act c hp => exact h.act c hp
  | write w writes hp => exact h.write hp
  | listen hp => exact ⟨h.current, h.board_eq, h.due, h.told, Nat.le_refl _⟩
  | look position hp => exact ⟨h.current, h.board_eq, h.due, h.told, h.look hp⟩
  | find position view hp => exact ⟨h.current, h.board_eq, h.due, h.told, h.find hp⟩
  | receive initial received position event hp hevent =>
    exact ⟨h.current, h.board_eq, h.due, h.told, h.receive hp hevent⟩

theorem Sound.reaches (h : scene.Sound opening) (hreaches : Reaches scene next) :
    next.Sound opening := by
  induction hreaches with
  | refl => exact h
  | tail _ hstep ih => exact ih.step hstep

/-- A page that has joined at any moment and has heard all that was sent since knows the current view
and the generation in the slot, and so does a page that was there from the opening. -/
theorem joined_converges (id : String) (options : Document.Options) (timing : Timing)
    (scene : Scene) (initial received : List PageEvent) (position : Nat)
    (reached : Reaches (opened id options timing) scene) (waits : scene.pending = [])
    (joined : scene.page = .joined initial received position)
    (consumed : position = scene.board.sent.length) :
    Picture.ofEvents (initial ++ received) =
        ⟨some (.ofSession scene.actor.session), scene.board.slot.map (·.1)⟩ ∧
      Picture.ofEvents (initial ++ received) =
        Picture.ofEvents (.view (Actor.start id options timing).view :: scene.board.sent) ∧
      scene.board = scene.actor.board := by
  have h := (sound_opened id options timing).reaches reached
  have hboard : scene.board = scene.actor.board := by
    rw [← h.board_eq, waits]
    rfl
  have hahead : ∀ position, scene.ahead position = scene.board.sent.drop position := by
    intro position
    rw [ahead, waits, List.filterMap_nil, List.append_nil]
  have hknown : Picture.ofEvents (initial ++ received) = scene.picture := by
    have hinforms := h.informs
    rw [joined] at hinforms
    rw [← hinforms.2, hahead, consumed, List.drop_length, List.append_nil]
  have htold := h.told
  rw [hahead, List.drop_zero] at htold
  refine ⟨?_, hknown.trans htold.symm, hboard⟩
  rw [hknown, picture, ← hboard, Picture.ofBoard, hboard, ← h.current.view_eq]
  rfl

/-- The page listens, looks at the old view while the load is still to be announced, finds the new
load in the slot and then is told of that load once more. -/
theorem converges_when_interrupted : ∃ scene initial received position,
    Reaches (opened "main" {} {}) scene ∧ scene.pending = [] ∧
      scene.page = .joined initial received position ∧ position = scene.board.sent.length ∧
      initial = [.view (Actor.start "main" {} {}).view, .load 1] ∧
      received = [.load 1, .view scene.board.view] ∧
      Picture.ofEvents (initial ++ received) =
        ⟨some (.ofSession scene.actor.session), some 1⟩ := by
  have queued : Reaches (opened "main" {} {}) _ :=
    .single (.enqueue _ (.update Session.sampleSource none))
  have listening := queued.tail (.listen _ rfl)
  have shown := (listening.tail (.act _ (.turn 0) rfl)).tail (.look _ _ rfl)
  have joined := (shown.tail (.write _ _ _ rfl)).tail (.find _ _ _ rfl)
  have told := (joined.tail (.write _ _ _ rfl)).tail (.receive _ _ _ _ _ rfl rfl)
  have written := (told.tail (.write _ _ _ rfl)).tail (.write _ _ _ rfl)
  have heard := written.tail (.receive _ _ _ _ _ rfl rfl)
  exact ⟨_, _, _, _, heard, rfl, rfl, rfl, rfl, rfl,
    (joined_converges "main" {} {} _ _ _ _ heard rfl rfl rfl).1⟩

end Scene

theorem Registry.subscribe_joins {registry : Registry} {id : String} {index : Nat} {actor : Actor}
    (hid : registry.handle? id = some index) (hactor : registry.actors[index]? = some actor) :
    ∃ subscriber, registry.subscribe id = .ok subscriber ∧
      ∀ scene : Scene, scene.board = actor.board → scene.page = .outside →
        Scene.Reaches scene
          { scene with page := .joined subscriber.initial [] subscriber.position } := by
  have hfound : registry.actor? id = some actor := by
    rw [Registry.actor?, hid]
    exact hactor
  refine ⟨_, by rw [Registry.subscribe, hid, hfound], ?_⟩
  intro scene hboard hpage
  obtain ⟨acting, pending, board, page⟩ := scene
  subst hboard hpage
  have listening : Scene.Reaches ⟨acting, pending, actor.board, .outside⟩ _ :=
    .single (.listen _ rfl)
  exact (listening.tail (.look _ _ rfl)).tail (.find _ _ _ rfl)

end LivePreview
