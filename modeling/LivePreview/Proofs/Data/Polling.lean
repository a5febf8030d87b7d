import Mathlib.Data.List.Induction
import LivePreview.CommandLine.Run

namespace LivePreview

namespace Quantity

inductive Reads : Json → Float → Prop where
  | int (n : JsonInt) : Reads (.int n) n.toFloat
  | float (x : Float) : Reads (.float x) x
  | blank {s : String} : Text.trim s.toList = [] → Reads (.str s) 0.0
  | text {s : String} {x : Float} : Text.trim s.toList ≠ [] →
      Decimal.parse? (Text.trim s.toList) = some x → Reads (.str s) x
  | yes : Reads (.bool true) 1.0
  | no : Reads (.bool false) 0.0
  | null : Reads .null 0.0

variable {value row : Json} {quantity least : Float}

theorem coerce?_eq_some_iff : coerce? value = some quantity ↔ Reads value quantity := by
  constructor
  · intro h
    cases value with
    | null => exact Option.some.inj h ▸ .null
    | bool b => cases b <;> exact Option.some.inj h ▸ by constructor
    | int n => exact Option.some.inj h ▸ .int n
    | float x => exact Option.some.inj h ▸ .float x
    | str s =>
      simp only [coerce?, List.isEmpty_iff] at h
      split at h
      case isTrue hblank => exact Option.some.inj h ▸ .blank hblank
      case isFalse htext => exact .text htext h
    | arr items => cases h
    | obj fields => cases h
  · intro h
    cases h with
    | blank hblank => simp [coerce?, hblank]
    | text htext hparse => simp [coerce?, htext, hparse]
    | _ => rfl

def Suffices (least : Float) (row : Json) : Prop :=
  ∃ value quantity, row.get? "quantity" = some value ∧ Reads value quantity ∧ least ≤ quantity

theorem reaches_iff_suffices : reaches least row = true ↔ Suffices least row := by
  have hread (quantity : Float) : (row.get? "quantity").bind coerce? = some quantity ↔
      ∃ value, row.get? "quantity" = some value ∧ Reads value quantity := by
    simp only [Option.bind_eq_some_iff, coerce?_eq_some_iff]
  rw [reaches]
  split
  case h_1 quantity hquantity =>
    obtain ⟨value, hvalue, hreads⟩ := (hread quantity).1 hquantity
    refine ⟨fun h => ⟨value, quantity, hvalue, hreads, of_decide_eq_true h⟩, ?_⟩
    rintro ⟨value', quantity', hvalue', hreads', hleast⟩
    obtain rfl : quantity = quantity' :=
      Option.some.inj (hquantity.symm.trans ((hread quantity').2 ⟨value', hvalue', hreads'⟩))
    exact decide_eq_true hleast
  case h_2 hnone =>
    refine ⟨fun h => (Bool.false_ne_true h).elim, ?_⟩
    rintro ⟨value, quantity, hvalue, hreads, -⟩
    cases hnone.symm.trans ((hread quantity).2 ⟨value, hvalue, hreads⟩)

instance (least : Float) : DecidablePred (Suffices least) :=
  fun _ => decidable_of_iff _ reaches_iff_suffices

theorem withQuantity_eq_filter (least : Float) (rows : Rows) :
    rows.withQuantity least = rows.filter (Suffices least) :=
  List.filter_congr fun row _ => by
    rw [Bool.eq_iff_iff, reaches_iff_suffices, decide_eq_true_iff]

end Quantity

/-- The message that a body gives of itself. Its own comes first, then a text as its error, then the
message of its error. -/
inductive Reports : Json → String → Prop where
  | message {body : Json} {message : String} :
      body.get? "message" = some (.str message) → Reports body message
  | error {body : Json} {message : String} :
      (∀ own, body.get? "message" ≠ some (.str own)) →
      body.get? "error" = some (.str message) → Reports body message
  | inner {body error : Json} {message : String} :
      (∀ own, body.get? "message" ≠ some (.str own)) →
      body.get? "error" = some error → error.get? "message" = some (.str message) →
      Reports body message

section Reporting

variable {body value : Json} {message : String}

theorem string?_eq_some_iff : value.string? = some message ↔ value = .str message := by
  cases value <;> simp [Json.string?]

theorem bind_string?_eq_some_iff {given : Option Json} :
    given.bind Json.string? = some message ↔ given = some (.str message) := by
  simp [Option.bind_eq_some_iff, string?_eq_some_iff]

theorem bind_string?_eq_none_iff {given : Option Json} :
    given.bind Json.string? = none ↔ ∀ own, given ≠ some (.str own) := by
  simp only [Option.eq_none_iff_forall_ne_some, ne_eq, bind_string?_eq_some_iff]

theorem reportedError?_eq_some_iff : reportedError? body = some message ↔ Reports body message := by
  constructor
  · intro h
    rw [reportedError?] at h
    split at h
    case h_1 own hown =>
      obtain rfl := Option.some.inj h
      exact .message (bind_string?_eq_some_iff.1 hown)
    case h_2 hnone =>
      have hown := bind_string?_eq_none_iff.1 hnone
      split at h
      case h_1 text herror =>
        obtain rfl := Option.some.inj h
        exact .error hown herror
      case h_2 error _ herror => exact .inner hown herror (bind_string?_eq_some_iff.1 h)
      case h_3 => cases h
  · intro h
    cases h with
    | message hmessage => rw [reportedError?, bind_string?_eq_some_iff.2 hmessage]
    | error hown herror => rw [reportedError?, bind_string?_eq_none_iff.2 hown, herror]
    | @inner error _ hown herror hinner =>
      rw [reportedError?, bind_string?_eq_none_iff.2 hown, herror]
      cases error with
      | str text => cases hinner
      | _ => exact bind_string?_eq_some_iff.2 hinner

theorem not_reports_arr (rows : Rows) (message : String) : ¬ Reports (.arr rows) message := by
  rintro (h | ⟨-, h⟩ | ⟨-, h⟩) <;> cases h

theorem ofBody_of_not_arr (h : ∀ rows, body ≠ .arr rows) :
    Rows.ofBody body =
      match reportedError? body with
      | some message => .error (.api message)
      | none => .error .unexpectedShape := by
  cases body with
  | arr rows => exact absurd rfl (h rows)
  | _ => rfl

end Reporting

inductive Answer where
  | body (value : Json)
  | undecodable (fault : String)
  | lost (message : String)

namespace Answer

def ofReply : Reply → Answer
  | .received status text =>
      let text := if hasNoBody status then "" else text
      match Json.parse text with
      | .ok value => .body value
      | .error fault => .undecodable (fault.located text.toList)
  | .lost message => .lost message

def outcome (least : Float) : Answer → Except DataFailure Rows
  | .body value => (Rows.ofBody value).map (Rows.withQuantity least)
  | .undecodable fault => .error (.decode fault)
  | .lost message => .error (.transport message)

def rows? : Answer → Option Rows
  | .body (.arr rows) => some rows
  | _ => none

/-- The message that stands for an answer that is no array. -/
inductive Explains : Answer → String → Prop where
  | reported {body : Json} {message : String} :
      Reports body message → Explains (.body body) message
  | misshapen {body : Json} : (∀ rows, body ≠ .arr rows) → (∀ message, ¬ Reports body message) →
      Explains (.body body) "Unexpected response shape"
  | undecodable (fault : String) :
      Explains (.undecodable fault) ("invalid JSON response: " ++ fault)
  | lost (message : String) : Explains (.lost message) message

variable {answer : Answer} {least : Float} {rows : Rows} {message : String}

theorem rows?_eq_some_iff : answer.rows? = some rows ↔ answer = .body (.arr rows) := by
  constructor
  · intro h
    unfold rows? at h
    split at h
    case h_1 => rw [Option.some.inj h]
    case h_2 => cases h
  · rintro rfl
    rfl

theorem outcome_ofReply (least : Float) (reply : Reply) :
    (ofReply reply).outcome least = (Client.rowsOf reply).map (Rows.withQuantity least) := by
  cases reply with
  | lost message => rfl
  | received status text =>
    cases hparse : Json.parse (if hasNoBody status then "" else text) <;>
      simp only [ofReply, Client.rowsOf, Client.readReply, decodeBody, hparse] <;> rfl

theorem outcome_of_rows? (h : answer.rows? = some rows) :
    answer.outcome least = .ok (rows.filter (Quantity.Suffices least)) := by
  obtain rfl := rows?_eq_some_iff.1 h
  exact congrArg Except.ok (Quantity.withQuantity_eq_filter least rows)

theorem not_explains_of_rows? (h : answer.rows? = some rows) : ¬ answer.Explains message := by
  obtain rfl := rows?_eq_some_iff.1 h
  rintro (hreports | ⟨harr, -⟩)
  · exact not_reports_arr rows message hreports
  · exact harr rows rfl

theorem explains_undecodable_iff {fault : String} :
    (undecodable fault).Explains message ↔ "invalid JSON response: " ++ fault = message := by
  constructor
  · rintro ⟨⟩
    rfl
  · rintro rfl
    exact .undecodable fault

theorem explains_lost_iff {text : String} : (lost text).Explains message ↔ text = message := by
  constructor
  · rintro ⟨⟩
    rfl
  · rintro rfl
    exact .lost text

theorem explains_body_iff_of_reported {value : Json} {text : String}
    (h : reportedError? value = some text) : (body value).Explains message ↔ text = message := by
  constructor
  · rintro (hreports | ⟨-, hnone⟩)
    · exact Option.some.inj (h.symm.trans (reportedError?_eq_some_iff.2 hreports))
    · exact absurd (reportedError?_eq_some_iff.1 h) (hnone text)
  · rintro rfl
    exact .reported (reportedError?_eq_some_iff.1 h)

theorem explains_body_iff_of_unreported {value : Json} (harr : ∀ rows, value ≠ .arr rows)
    (h : reportedError? value = none) :
    (body value).Explains message ↔ "Unexpected response shape" = message := by
  have hnone (text : String) : ¬ Reports value text := fun hreports => by
    cases h.symm.trans (reportedError?_eq_some_iff.2 hreports)
  constructor
  · rintro (hreports | ⟨-, -⟩)
    · exact absurd hreports (hnone message)
    · rfl
  · rintro rfl
    exact .misshapen harr hnone

-- The failure has one message, and that message alone explains the answer.
theorem exists_failure (h : answer.rows? = none) :
    ∃ failure, answer.outcome least = .error failure ∧
      ∀ message, answer.Explains message ↔ failure.message = message := by
  cases answer with
  | undecodable fault => exact ⟨_, rfl, fun _ => explains_undecodable_iff⟩
  | lost text => exact ⟨_, rfl, fun _ => explains_lost_iff⟩
  | body value =>
    have harr (rows : Rows) : value ≠ .arr rows := by
      rintro rfl
      cases h
    rw [outcome, ofBody_of_not_arr harr]
    cases hreported : reportedError? value with
    | some text => exact ⟨_, rfl, fun _ => explains_body_iff_of_reported hreported⟩
    | none => exact ⟨_, rfl, fun _ => explains_body_iff_of_unreported harr hreported⟩

end Answer

namespace LiveRows

def lastRows (answers : List Answer) : Rows :=
  (answers.filterMap Answer.rows?).getLast?.getD []

structure Shows (least : Float) (before : List Answer) (last : Answer) (state : LiveRows) :
    Prop where
  data : state.data = (lastRows (before ++ [last])).filter (Quantity.Suffices least)
  loading : state.loading = false
  error_eq_none_iff : state.error = none ↔ ∃ rows, last = .body (.arr rows)
  error_eq_some_iff : ∀ message, state.error = some message ↔ last.Explains message

section Ticks

variable {least : Float} {before : List Answer} {last : Answer} {rows : Rows} {state : LiveRows}

theorem lastRows_of_rows? (h : last.rows? = some rows) : lastRows (before ++ [last]) = rows := by
  simp [lastRows, h]

theorem lastRows_of_failure (h : last.rows? = none) :
    lastRows (before ++ [last]) = lastRows before := by
  simp [lastRows, h]

theorem data_of_failure (h : last.rows? = none) :
    (state.apply (last.outcome least)).data = state.data := by
  obtain ⟨failure, hfailure, -⟩ := Answer.exists_failure h
  rw [hfailure]
  rfl

theorem shows_apply (h : state.data = (lastRows before).filter (Quantity.Suffices least)) :
    Shows least before last (state.apply (last.outcome least)) := by
  cases hrows : last.rows? with
  | some rows =>
    rw [Answer.outcome_of_rows? hrows]
    refine ⟨?_, rfl, ?_, fun message => ?_⟩
    · rw [lastRows_of_rows? hrows]
      rfl
    · exact iff_of_true rfl ⟨rows, Answer.rows?_eq_some_iff.1 hrows⟩
    · exact iff_of_false nofun (Answer.not_explains_of_rows? hrows)
  | none =>
    obtain ⟨failure, hfailure, hexplains⟩ := Answer.exists_failure hrows
    rw [hfailure]
    refine ⟨?_, rfl, ?_, fun message => ?_⟩
    · rw [lastRows_of_failure hrows]
      exact h
    · refine iff_of_false nofun ?_
      rintro ⟨rows, rfl⟩
      cases hrows
    · rw [hexplains]
      exact Option.some_inj

end Ticks

def settle (least : Float) (answers : List Answer) : LiveRows :=
  (answers.map (Answer.outcome least)).foldl apply {}

def delivered (least : Float) (answers : List Answer) : List LiveRows :=
  deliveries {} (answers.map (Answer.outcome least))

section Runs

variable (least : Float) (answers : List Answer)

theorem settle_concat (last : Answer) :
    settle least (answers ++ [last]) = (settle least answers).apply (last.outcome least) := by
  rw [settle, List.map_append, List.foldl_append]
  rfl

theorem data_settle :
    (settle least answers).data = (lastRows answers).filter (Quantity.Suffices least) := by
  induction answers using List.reverseRecOn with
  | nil => rfl
  | append_singleton before last ih =>
    rw [settle_concat]
    exact (shows_apply ih).data

theorem getElem?_deliveries (state : LiveRows) (past future : List (Except DataFailure Rows)) :
    (state :: state.deliveries (past ++ future))[past.length]? =
      some (past.foldl apply state) := by
  induction past generalizing state with
  | nil => rfl
  | cons outcome past ih => exact ih (state.apply outcome)

theorem getElem?_delivered (past future : List Answer) :
    (({} : LiveRows) :: delivered least (past ++ future))[past.length]? =
      some (settle least past) := by
  have hplace := getElem?_deliveries {} (past.map (Answer.outcome least))
    (future.map (Answer.outcome least))
  rwa [← List.map_append, List.length_map] at hplace

theorem length_delivered : (delivered least answers).length = answers.length := by
  have hlength (state : LiveRows) (outcomes : List (Except DataFailure Rows)) :
      (state.deliveries outcomes).length = outcomes.length := by
    induction outcomes generalizing state with
    | nil => rfl
    | cons outcome outcomes ih => exact congrArg (· + 1) (ih (state.apply outcome))
  rw [delivered, hlength, List.length_map]

end Runs

end LiveRows

namespace CommandLine

variable {m : Type → Type} [Monad m]

/-- The same terminal, except that what is printed is kept. -/
def Terminal.keeping (terminal : Terminal m) : Terminal (StateT (List String) m) where
  readText path := liftM (terminal.readText path)
  writeText path text := liftM (terminal.writeText path text)
  environment names := liftM (terminal.environment names)
  exchange request := liftM (terminal.exchange request)
  print text := modify (· ++ [text])
  pause interval := liftM (terminal.pause interval)
  rounds := terminal.rounds
  obstacles port watch := liftM (terminal.obstacles port watch)
  listen registry port watch := liftM (terminal.listen registry port watch)

variable [LawfulMonad m]

section Loop

variable (terminal : Terminal m) (interval : Nat) (tick : m (Except DataFailure Rows))
  (rounds : Nat) (state : LiveRows) (printed : List String)

theorem run_poll_succ :
    (poll terminal.keeping interval (liftM tick) (rounds + 1) state).run.run printed =
      (tick <* terminal.pause interval) >>= fun outcome =>
        (poll terminal.keeping interval (liftM tick) rounds (state.apply outcome)).run.run
          (printed ++ [(state.apply outcome).line ++ "\n"]) := by
  have hprint (text : String) :
      (terminal.keeping.print text).run printed = pure ((), printed ++ [text]) := rfl
  have hpause : terminal.keeping.pause interval = liftM (terminal.pause interval) := rfl
  simp [poll, seqLeft_eq_bind, ExceptT.run_bind, hprint, hpause]

theorem run_poll :
    (poll terminal.keeping interval (liftM tick) rounds state).run.run printed =
      (fun outcomes => (.ok (), printed ++
          (state.deliveries outcomes).map fun next => next.line ++ "\n")) <$>
        (List.replicate rounds (tick <* terminal.pause interval)).mapM id := by
  induction rounds generalizing state printed with
  | zero => simp [poll, LiveRows.deliveries]
  | succ rounds ih =>
    rw [run_poll_succ, List.replicate_succ, List.mapM_cons]
    simp [ih, LiveRows.deliveries]

end Loop

end CommandLine

namespace Client

section Lifting

variable {m n : Type → Type} [Monad m] [Monad n] [MonadLiftT m n] [LawfulMonadLiftT m n]

theorem send_lift (exchange : Request → m Reply) (method url : String)
    (headers : List (String × String)) (body : String) :
    send (fun request => (liftM (exchange request) : n Reply)) method url headers body =
      liftM (send exchange method url headers body) := by
  unfold send
  split
  · exact (monadLift_pure _).symm
  · exact (monadLift_pure _).symm
  · split
    · rfl
    · exact (monadLift_pure _).symm

theorem productsAt_lift (exchange : Request → m Reply) (client : Client)
    (location : Option String) :
    client.productsAt (fun request => (liftM (exchange request) : n Reply)) location =
      liftM (client.productsAt exchange location) := by
  unfold productsAt
  split <;> simp only [fetch, send_lift, monadLift_bind, monadLift_pure]

end Lifting

section Polling

variable {m : Type → Type} [Monad m] [LawfulMonad m]

def answer (exchange : Request → m Reply) (client : Client) (location : String) : m Answer :=
  Answer.ofReply <$> send exchange "POST" client.locationUrl
    (client.authorization ++ [("Content-Type", "application/json")]) (locationBody location)

theorem productsAt_eq_map (exchange : Request → m Reply) (client : Client) {location : String}
    (h : location ≠ "") :
    client.productsAt exchange (some location) =
      Answer.outcome client.api.minQuantity <$> client.answer exchange location := by
  have hgiven : (some location).filter (fun id => !id.isEmpty) = some location :=
    Option.filter_some_pos (by simpa using h)
  simp only [productsAt, hgiven, answer, Functor.map_map, Answer.outcome_ofReply]
  exact bind_pure_comp _ _

theorem mapM_replicate_map {α β : Type} (f : α → β) (tick : m α) (rounds : Nat) :
    (List.replicate rounds (f <$> tick)).mapM id =
      List.map f <$> (List.replicate rounds tick).mapM id := by
  induction rounds with
  | zero => simp
  | succ rounds ih => simp [List.replicate_succ, ih]

theorem run_report (terminal : CommandLine.Terminal m) (client : Client) {location : String}
    (h : location ≠ "") :
    (CommandLine.report terminal.keeping client true
        (client.productsAt terminal.keeping.exchange (some location))).run.run [] =
      (fun answers => (.ok (), (LiveRows.delivered client.api.minQuantity answers).map
          fun state => state.line ++ "\n")) <$>
        (List.replicate terminal.rounds (client.answer terminal.exchange location <*
          terminal.pause client.api.pollPeriod)).mapM id := by
  have htick : client.productsAt terminal.keeping.exchange (some location) =
      liftM (client.productsAt terminal.exchange (some location)) :=
    client.productsAt_lift terminal.exchange (some location)
  have hround : client.productsAt terminal.exchange (some location) <*
        terminal.pause client.api.pollPeriod =
      Answer.outcome client.api.minQuantity <$>
        (client.answer terminal.exchange location <* terminal.pause client.api.pollPeriod) := by
    simp [client.productsAt_eq_map terminal.exchange h, seqLeft_eq_bind]
  rw [htick]
  refine (CommandLine.run_poll terminal client.api.pollPeriod _ terminal.rounds {} []).trans ?_
  rw [hround, mapM_replicate_map, Functor.map_map]
  rfl

/-- Whatever the answers are, the states that a poller delivers are told from them: one state a tick,
whose rows are those of the last array so far that reach the minimum, in the order of the array, and
whose error is the message of the answer of the tick, if that was no array. The lines of these states
are what the command prints that watches a location. -/
theorem polled_products (exchange : Request → m Reply) (client : Client) {location : String}
    (h : location ≠ "") :
    ∃ shown : List Answer → List LiveRows,
      (∀ rounds, LiveRows.deliveries {} <$>
          (List.replicate rounds (client.productsAt exchange (some location))).mapM id =
        shown <$> (List.replicate rounds (client.answer exchange location)).mapM id) ∧
      (∀ terminal : CommandLine.Terminal m,
        (CommandLine.report terminal.keeping client true
            (client.productsAt terminal.keeping.exchange (some location))).run.run [] =
          (fun answers => (.ok (), (shown answers).map fun state => state.line ++ "\n")) <$>
            (List.replicate terminal.rounds (client.answer terminal.exchange location <*
              terminal.pause client.api.pollPeriod)).mapM id) ∧
      ∀ answers, (shown answers).length = answers.length ∧
        ∀ before last after, answers = before ++ last :: after → ∃ earlier state,
          (({} : LiveRows) :: shown answers)[before.length]? = some earlier ∧
          (shown answers)[before.length]? = some state ∧
          LiveRows.Shows client.api.minQuantity before last state ∧
          ((∀ rows, last ≠ .body (.arr rows)) → state.data = earlier.data) := by
  refine ⟨LiveRows.delivered client.api.minQuantity, fun rounds => ?_,
    fun terminal => client.run_report terminal h, fun answers =>
    ⟨LiveRows.length_delivered _ answers, ?_⟩⟩
  · rw [client.productsAt_eq_map exchange h, mapM_replicate_map, Functor.map_map]
    rfl
  · rintro before last after rfl
    have hstate := LiveRows.getElem?_delivered client.api.minQuantity (before ++ [last]) after
    rw [List.append_assoc, List.singleton_append, List.length_append, List.length_singleton,
      List.getElem?_cons_succ, LiveRows.settle_concat] at hstate
    refine ⟨_, _, LiveRows.getElem?_delivered _ before _, hstate,
      LiveRows.shows_apply (LiveRows.data_settle _ before),
      fun hfailure => LiveRows.data_of_failure ?_⟩
    exact Option.eq_none_iff_forall_ne_some.2 fun rows hrows =>
      hfailure rows (Answer.rows?_eq_some_iff.1 hrows)

end Polling

def nextReply (_ : Request) : StateM (List Reply) Reply :=
  modifyGet fun replies => (replies.headD (.lost "closed"), replies.tail)

theorem polled_until_refused :
    "L1" ≠ "" ∧ ∃ shown : List Answer → List LiveRows,
      (∀ rounds, LiveRows.deliveries {} <$> (List.replicate rounds
          (productsAt nextReply ⟨{ url := "http://db.test" }⟩ (some "L1"))).mapM id =
        shown <$> (List.replicate rounds
          (answer nextReply ⟨{ url := "http://db.test" }⟩ "L1")).mapM id) ∧
      ∃ state,
        (shown [.body (.arr [.obj [("quantity", .str " 3 ")], .obj [("quantity", .float 0.4)]]),
          .lost "refused"])[1]? = some state ∧
        state.data = [.obj [("quantity", .str " 3 ")]] ∧ state.error = some "refused" := by
  have hgiven : "L1" ≠ "" := by decide
  have hkept : [Json.obj [("quantity", .str " 3 ")], .obj [("quantity", .float 0.4)]].filter
      (Quantity.Suffices 1.0) = [.obj [("quantity", .str " 3 ")]] := by
    rw [List.filter_cons_of_pos (by decide), List.filter_cons_of_neg (by decide)]
    rfl
  obtain ⟨shown, hrun, -, hshown⟩ :=
    polled_products nextReply ⟨{ url := "http://db.test" }⟩ hgiven
  obtain ⟨-, hticks⟩ := hshown [.body (.arr [.obj [("quantity", .str " 3 ")],
    .obj [("quantity", .float 0.4)]]), .lost "refused"]
  obtain ⟨-, state, -, hstate, hshows, -⟩ := hticks [_] _ [] rfl
  exact ⟨hgiven, shown, hrun, state, hstate, hshows.data.trans hkept,
    (hshows.error_eq_some_iff _).2 (.lost _)⟩

end Client

end LivePreview
