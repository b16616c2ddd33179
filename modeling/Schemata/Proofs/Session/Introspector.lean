import Mathlib.Data.List.Induction
import Schemata.Proofs.Session.Migration

/-!
# Proofs — sessions — introspectors

An introspector as a machine: its state is whether there is a connection, and it goes through any
steps in any order, whatever the server answers.  What one step does is said by `Behaves`
(`behaves_perform`); its parts are that a fault ends the step it comes in and is told as that step
tells it (`Session.Tells`), and that the catalog is read with the same questions in the same order,
as far as it gets (`Session.Follows`).

`runs_behave` says it of every sequence of steps: each of them behaves, and the state in which it is
taken is that some `enter` has succeeded and there was no `leave` since (`History.Connected`).
-/

namespace Schemata

/-- The request `e`, made after `past`, is answered with a fault. -/
def Server.Refuses (s : Server) (past : List Event) (e : Event) (fault : ServerFault) : Prop :=
  match e with
  | .connect _ => s.accepts (past ++ [e]) = .error fault
  | .query .probe => s.probes (past ++ [e]) = .error fault
  | .query (.tables _) => s.tables (past ++ [e]) = .error fault
  | .query (.columns _ _) => s.columns (past ++ [e]) = .error fault
  | .query (.constraints _ _) => s.constraints (past ++ [e]) = .error fault
  | _ => False

/-- An error that says that the database cannot be reached or cannot be read. -/
def SessionError.isConnection : SessionError → Bool
  | .unreachable _ | .untested _ | .unreadable _ => true
  | .notConnected | .address _ | .numeral _ | .server _ => false

namespace Session

variable {ε ε' α β : Type} {told : ServerFault → ε} {own : ε → Prop}

/-! ### Faults -/

/-- Nothing is done. -/
def Silent (x : Session ε α) : Prop := ∀ s past, (x.run s past).events = []

theorem silent_pure (a : α) : (pure a : Session ε α).Silent := fun _ _ => rfl

/-- A fault of the server is the end, and is told as `told` says; any other error is among `own`. -/
structure Tells (x : Session ε α) (told : ServerFault → ε) (own : ε → Prop) : Prop where
  stops {s : Server} {past before after : List Event} {e : Event} {fault : ServerFault}
    (events : (x.run s past).events = before ++ e :: after)
    (refused : s.Refuses (past ++ before) e fault) :
    after = [] ∧ (x.run s past).outcome = .error (told fault)
  fails {s : Server} {past : List Event} {error : ε}
    (failed : (x.run s past).outcome = .error error) :
    (∃ before e fault, (x.run s past).events = before ++ [e] ∧
      s.Refuses (past ++ before) e fault ∧ error = told fault) ∨ own error

/-- Work that asks nothing tells nothing. -/
theorem tells_of_silent {x : Session ε α} (silent : x.Silent)
    (h : ∀ s past error, (x.run s past).outcome = .error error → own error) :
    x.Tells told own where
  stops events _ := absurd ((silent _ _).symm.trans events) (by simp)
  fails failed := .inr (h _ _ _ failed)

theorem tells_pure (a : α) : (pure a : Session ε α).Tells told own :=
  tells_of_silent (silent_pure a) fun _ _ _ h => nomatch h

theorem tells_note (level : Level) (text : String) :
    (note level text : Session ε Unit).Tells told own :=
  tells_of_silent (fun _ _ => rfl) fun _ _ _ h => nomatch h

theorem tells_close : (emit .close : Session ε Unit).Tells told own where
  stops {_ _ before _ _ _} events refused := by
    cases before with
    | nil =>
        obtain ⟨rfl, -⟩ := List.cons.inj events
        exact refused.elim
    | cons _ _ => exact absurd (List.cons.inj events).2 (by simp)
  fails failed := nomatch failed

/-- A request is answered by one of the answers of the server. -/
theorem tells_ask {e : Event} {reply : Server → List Event → Except ServerFault α}
    (own : ServerFault → Prop)
    (h : ∀ s past fault, s.Refuses past e fault ↔ reply s (past ++ [e]) = .error fault) :
    (ask e reply).Tells id own where
  stops {_ _ before _ _ _} events refused := by
    cases before with
    | nil =>
        obtain ⟨rfl, rfl⟩ := List.cons.inj events
        rw [List.append_nil] at refused
        exact ⟨rfl, (h _ _ _).mp refused⟩
    | cons _ _ => exact absurd (List.cons.inj events).2 (by simp)
  fails {s past error} failed :=
    .inl ⟨[], e, error, rfl, (h _ _ _).mpr (by rw [List.append_nil]; exact failed), rfl⟩

/-- Work whose errors are told otherwise tells them otherwise. -/
theorem Tells.mapError {x : Session ε α} {own' : ε' → Prop} (h : x.Tells told own) (f : ε → ε')
    (hown : ∀ error, own error → own' (f error)) : (x.mapError f).Tells (f ∘ told) own' where
  stops events refused := by
    obtain ⟨hafter, houtcome⟩ := h.stops events refused
    exact ⟨hafter, by rw [run_mapError, houtcome]; rfl⟩
  fails {s past error} failed := by
    rw [run_mapError] at failed
    cases hx : (x.run s past).outcome with
    | ok a => rw [hx] at failed; cases failed
    | error e =>
        rw [hx] at failed
        obtain rfl : f e = error := Except.error.inj failed
        rcases h.fails hx with ⟨before, request, fault, hevents, hrefused, rfl⟩ | he
        · exact .inl ⟨before, request, fault, hevents, hrefused, rfl⟩
        · exact .inr (hown e he)

/-- Work that is done in two parts tells what the parts do. -/
theorem Tells.bind {x : Session ε α} {f : α → Session ε β} (hx : x.Tells told own)
    (hf : ∀ a, (f a).Tells told own) : (x >>= f).Tells told own where
  stops {s past before after e fault} events refused := by
    cases h : (x.run s past).outcome with
    | error error =>
        rw [run_bind_error h] at events ⊢
        obtain ⟨hafter, houtcome⟩ := hx.stops events refused
        exact ⟨hafter, congrArg _ (Except.error.inj (h.symm.trans houtcome))⟩
    | ok a =>
        rw [run_bind_ok h] at events ⊢
        rcases List.append_eq_append_iff.mp events with ⟨mid, hbefore, hrest⟩ | ⟨mid, hfirst, hrest⟩
        · subst hbefore
          rw [← List.append_assoc] at refused
          exact (hf a).stops hrest refused
        · -- the request would be one of the first work, which did not fail
          cases mid with
          | nil =>
              rw [List.append_nil] at hfirst
              rw [← hfirst] at refused
              have hevents : _ = [] ++ e :: after := hrest.symm
              exact (hf a).stops hevents (by rwa [List.append_nil])
          | cons e' mid =>
              obtain ⟨rfl, -⟩ := List.cons.inj hrest
              rw [(hx.stops hfirst refused).2] at h
              cases h
  fails {s past error} failed := by
    cases h : (x.run s past).outcome with
    | error e =>
        rw [run_bind_error h] at failed ⊢
        obtain rfl := Except.error.inj failed
        exact hx.fails h
    | ok a =>
        rw [run_bind_ok h] at failed ⊢
        rcases (hf a).fails failed with ⟨before, e, fault, hevents, hrefused, rfl⟩ | he
        · refine .inl ⟨(x.run s past).events ++ before, e, fault, ?_, ?_, rfl⟩
          · rw [hevents, List.append_assoc]
          · rwa [← List.append_assoc]
        · exact .inr he

theorem Tells.mapM {f : α → Session ε β} (hf : ∀ a, (f a).Tells told own) (xs : List α) :
    (xs.mapM f).Tells told own := by
  have hloop : ∀ ys : List β, (List.mapM.loop f xs ys).Tells told own := by
    induction xs with
    | nil => exact fun ys => tells_pure _
    | cons x xs ih => exact fun ys => (hf x).bind fun y => ih (y :: ys)
  exact hloop []

/-! ### Questions in their order -/

theorem run_bind_silent {x : Session ε α} {f : α → Session ε β} (hf : ∀ a, (f a).Silent)
    (s : Server) (past : List Event) :
    ((x >>= f).run s past).events = (x.run s past).events := by
  cases h : (x.run s past).outcome with
  | error e => rw [run_bind_error h]
  | ok a => rw [run_bind_ok h, hf a, List.append_nil]

/-- Work that succeeds has a first part that does. -/
theorem exists_ok_of_bind_ok {x : Session ε α} {f : α → Session ε β} {s : Server}
    {past : List Event} {b : β} (h : ((x >>= f).run s past).outcome = .ok b) :
    ∃ a, (x.run s past).outcome = .ok a := by
  cases hx : (x.run s past).outcome with
  | error e =>
      rw [run_bind_error hx] at h
      cases h
  | ok a => exact ⟨a, rfl⟩

/-- The events are these, and all of them if the work does not fail. -/
def Follows (x : Session ε α) (events : List Event) : Prop :=
  ∀ s past, (x.run s past).events <+: events ∧
    ∀ a, (x.run s past).outcome = .ok a → (x.run s past).events = events

theorem follows_pure (a : α) : (pure a : Session ε α).Follows [] :=
  fun _ _ => ⟨List.prefix_rfl, fun _ _ => rfl⟩

theorem follows_ask (e : Event) (reply : Server → List Event → Except ServerFault α) :
    (ask e reply).Follows [e] :=
  fun _ _ => ⟨List.prefix_rfl, fun _ _ => rfl⟩

/-- Work that is done in two parts follows both lists of events. -/
theorem Follows.bind {x : Session ε α} {f : α → Session ε β} {first second : List Event}
    (hx : x.Follows first) (hf : ∀ a, (f a).Follows second) :
    (x >>= f).Follows (first ++ second) := by
  intro s past
  obtain ⟨hbegins, hall⟩ := hx s past
  cases h : (x.run s past).outcome with
  | error e =>
      rw [run_bind_error h]
      exact ⟨hbegins.trans (List.prefix_append _ _), fun _ hok => nomatch hok⟩
  | ok a =>
      obtain ⟨hnext, hrest⟩ := hf a s (past ++ (x.run s past).events)
      rw [run_bind_ok h, hall a h] at *
      exact ⟨(List.prefix_append_right_inj _).mpr hnext, fun b hb => by rw [hrest b hb]⟩

/-- Work that is done for each thing follows the events of each. -/
theorem Follows.mapM {f : α → Session ε β} {questions : α → List Event}
    (hf : ∀ a, (f a).Follows (questions a)) (xs : List α) :
    (xs.mapM f).Follows (xs.flatMap questions) := by
  have hloop : ∀ ys : List β, (List.mapM.loop f xs ys).Follows (xs.flatMap questions) := by
    induction xs with
    | nil => exact fun ys => follows_pure _
    | cons x xs ih => exact fun ys => (hf x).bind fun y => ih (y :: ys)
  exact hloop []

end Session

namespace Introspector

open Session

/-- A step that asks the database something. -/
def Step.asks : Step → Bool
  | .test | .snapshot _ | .schema _ => true
  | .enter | .leave => false

/-- What a step tells of a fault of the server. -/
def Step.told : Step → ServerFault → SessionError
  | .enter => connectError
  | .test => queryError .untested
  | .leave | .snapshot _ | .schema _ => queryError .unreadable

/-- The errors of a step that are not the server's. -/
inductive Step.Fails (i : Introspector) (connected : Bool) : Step → SessionError → Prop
  | notConnected {step : Step} (asks : step.asks) (unconnected : connected = false) :
      Fails i connected step .notConnected
  | address {fault : UrlFault} (connector : i.connector = .error fault) :
      Fails i connected .enter (.address fault)
  | numeral {name : Option String} {fault : NumeralFault} :
      Fails i connected (.schema name) (.numeral fault)

/-- The questions about a catalog with the tables `names`. -/
def questions (i : Introspector) (schema : Option String) (names : List String) : List Event :=
  .query (.tables (i.namespace? schema)) ::
    (names.filter fun name => !i.excluded.contains name).flatMap fun name =>
      [.query (.columns (i.namespace? schema) name),
       .query (.constraints (i.namespace? schema) name)]

/-- The questions come in the order of the tables, as far as they get: if nothing fails, then the
names of the tables are asked for once, and each that is not excluded is asked about. -/
def Reads (i : Introspector) (s : Server) (past : List Event) (schema : Option String) {ε α : Type}
    (r : Run ε α) : Prop :=
  ∃ names, r.events <+: i.questions schema names ∧ ∀ a, r.outcome = .ok a →
    s.tables (past ++ [Event.query (.tables (i.namespace? schema))]) = .ok names ∧
      r.events = i.questions schema names

/-- What a step does after the events `past`, with or without a connection. -/
structure Behaves (i : Introspector) (s : Server) (past : List Event) (connected : Bool)
    (step : Step) (r : Run SessionError Result) : Prop where
  /-- Without a connection nothing is asked. -/
  unconnected (asks : step.asks) (h : connected = false) :
    r.events = [] ∧ r.outcome = .error .notConnected
  /-- A step that fails leaves the connection as it was. -/
  kept {error : SessionError} (failed : r.outcome = .error error) :
    step.connects connected r.outcome = connected
  /-- At most one connection is asked for, and there is one if it is made. -/
  enters (h : step = .enter) :
    (∃ fault, i.connector = .error fault ∧ r.events = [] ∧ r.outcome = .error (.address fault)) ∨
      ∃ c, i.connector = .ok c ∧ r.events = [Event.connect c] ∧
        (r.outcome = .ok .entered ↔ s.accepts (past ++ [Event.connect c]) = .ok ())
  /-- A connection is closed if and only if there is one. -/
  leaves (h : step = .leave) :
    r.outcome = .ok .left ∧ r.events = if connected then [Event.close] else []
  /-- Every other event is a question. -/
  asks (h : step.asks) : ∀ e ∈ r.events, ∃ query, e = .query query
  /-- The first fault is the last thing that happens, and the driver's are told as what they are. -/
  stops {before after : List Event} {e : Event} {fault : ServerFault}
    (events : r.events = before ++ e :: after) (refused : s.Refuses (past ++ before) e fault) :
    after = [] ∧ r.outcome = .error (step.told fault) ∧
      (fault.origin = .driver ∨ step = .enter ∧ fault.origin = .system →
        (step.told fault).isConnection)
  /-- Every error is told of a fault, or is the step's own. -/
  fails {error : SessionError} (failed : r.outcome = .error error) :
    (∃ before e fault, r.events = before ++ [e] ∧ s.Refuses (past ++ before) e fault ∧
      error = step.told fault) ∨ step.Fails i connected error
  /-- The catalog is read in the order of its tables, without those that are excluded. -/
  reads {name : Option String} (h : step = .snapshot name ∨ step = .schema name)
    (isConnected : connected) : i.Reads s past name r

variable {i : Introspector} {connected : Bool} {name : Option String}

/-! ### One step -/

/-- **To enter** asks for a connection, and fails for the address besides. -/
theorem tells_enter : i.enter.Tells connectError (Step.enter.Fails i connected) := by
  refine .bind (tells_of_silent (fun _ _ => rfl) fun s past error h => ?_) fun c => ?_
  · rw [run_ofExcept] at h
    cases hconnector : i.connector with
    | ok c => rw [hconnector] at h; cases h
    | error fault =>
        rw [hconnector] at h
        obtain rfl := Except.error.inj h
        exact .address hconnector
  · exact (tells_ask (fun _ => False) fun _ _ _ => Iff.rfl).mapError connectError nofun

/-- To require a connection asks nothing, and fails where there is none. -/
theorem tells_requireConnection {told : ServerFault → SessionError} {own : SessionError → Prop}
    (hown : connected = false → own .notConnected) :
    (requireConnection connected).Tells told own := by
  unfold requireConnection
  split
  · exact tells_pure ()
  next h =>
    refine tells_of_silent (fun _ _ => rfl) fun _ _ error herror => ?_
    obtain rfl := Except.error.inj herror
    exact hown (Bool.eq_false_iff.mpr h)

/-- **To test** asks a question of the server, and fails without a connection besides. -/
theorem tells_test :
    (test connected).Tells (queryError .untested) (Step.test.Fails i connected) := by
  refine .bind (tells_requireConnection (.notConnected rfl)) fun _ => .bind ?_ fun _ => tells_pure _
  exact (tells_ask (fun _ => False) fun _ _ _ => Iff.rfl).mapError (queryError .untested) nofun

theorem tells_tables : (i.tables name).Tells id fun _ => False := by
  refine .bind (tells_ask _ fun _ _ _ => Iff.rfl) fun names => .mapM ?_ _
  exact fun table => .bind (tells_ask _ fun _ _ _ => Iff.rfl) fun _ =>
    .bind (tells_ask _ fun _ _ _ => Iff.rfl) fun _ => tells_pure _

/-- **To take a snapshot** asks questions, and fails without a connection besides. -/
theorem tells_snapshot {own : SessionError → Prop}
    (hown : connected = false → own .notConnected) :
    (i.snapshot connected name).Tells (queryError .unreadable) own :=
  .bind (tells_requireConnection hown) fun _ =>
    .bind (tells_tables.mapError (queryError .unreadable) nofun) fun _ =>
      .bind (tells_note _ _) fun _ => tells_pure _

/-- **To read a schema** asks the questions of a snapshot, and fails for a numeral or without a
connection besides. -/
theorem tells_schema :
    (i.schema connected name).Tells (queryError .unreadable)
      ((Step.schema name).Fails i connected) := by
  refine .bind (tells_snapshot (.notConnected rfl)) fun snapshot => ?_
  refine tells_of_silent (fun _ _ => rfl) fun _ _ error h => ?_
  rw [run_ofJournal, Journal.outcome_mapError] at h
  cases hschema : (snapshot.schema i.backend.dialect).outcome with
  | ok schema => rw [hschema] at h; cases h
  | error fault =>
      rw [hschema] at h
      obtain rfl := Except.error.inj h
      exact .numeral

/-- Whatever a step does, it ends with the first fault, and tells it. -/
theorem tells_perform (i : Introspector) (connected : Bool) (step : Step) :
    (i.perform connected step).Tells step.told (step.Fails i connected) := by
  cases step with
  | enter => exact tells_enter.bind fun _ => tells_pure _
  | leave =>
      refine .bind ?_ fun _ => tells_pure _
      unfold leave
      split
      · exact tells_close
      · exact tells_pure ()
  | test => exact tells_test.bind fun _ => tells_pure _
  | snapshot name => exact (tells_snapshot (.notConnected rfl)).bind fun _ => tells_pure _
  | schema name => exact tells_schema.bind fun _ => tells_pure _

/-- What is silent changes nothing in how the tables are read. -/
theorem Reads.bind {ε α β : Type} {s : Server} {past : List Event} {x : Session ε α}
    {f : α → Session ε β} (h : i.Reads s past name (x.run s past)) (hf : ∀ a, (f a).Silent) :
    i.Reads s past name ((x >>= f).run s past) := by
  obtain ⟨names, hbegins, hall⟩ := h
  refine ⟨names, ?_, fun b hb => ?_⟩
  · rwa [run_bind_silent hf]
  · obtain ⟨a, ha⟩ := exists_ok_of_bind_ok hb
    rw [run_bind_silent hf]
    exact hall a ha

/-- The questions about tables come in their order. -/
theorem reads_tables (s : Server) (past : List Event) :
    i.Reads s past name ((i.tables name).run s past) := by
  unfold tables
  cases h : s.tables (past ++ [Event.query (.tables (i.namespace? name))]) with
  | error fault =>
      rw [run_bind_error (x := ask _ Server.tables) h]
      exact ⟨[], List.prefix_rfl, fun _ hok => nomatch hok⟩
  | ok names =>
      have hfollows := Follows.mapM (f := i.table name)
        (fun table => (follows_ask _ _).bind fun _ => (follows_ask _ _).bind fun _ =>
          follows_pure _) (names.filter fun table => !i.excluded.contains table)
      obtain ⟨hbegins, hall⟩ := hfollows s (past ++ [Event.query (.tables (i.namespace? name))])
      rw [run_bind_ok (x := ask _ Server.tables) h]
      exact ⟨names, List.cons_prefix_cons.mpr ⟨rfl, hbegins⟩, fun ts hts =>
        ⟨h, congrArg (_ :: ·) (hall ts hts)⟩⟩

/-- The questions of a snapshot come in the order of the tables. -/
theorem reads_snapshot (s : Server) (past : List Event) :
    i.Reads s past name ((i.snapshot true name).run s past) := by
  have hrun : (i.snapshot true name).run s past =
      (do
        let tables ← (i.tables name).mapError (queryError .unreadable)
        let snapshot := Snapshot.ofList tables
        note .debug s!"Introspected {snapshot.length} tables"
        pure snapshot : Session SessionError Snapshot).run s past := by
    unfold snapshot requireConnection
    rw [if_pos rfl, run_bind_ok (x := pure ()) (a := ()) rfl]
    simp
  rw [hrun]
  refine .bind ?_ fun tables => run_bind_silent (fun _ => silent_pure _)
  obtain ⟨names, hbegins, hall⟩ : i.Reads s past name ((i.tables name).run s past) :=
    reads_tables s past
  refine ⟨names, hbegins, fun tables h => ?_⟩
  rw [run_mapError, Except.mapError_eq_ok_iff] at h
  exact hall tables h

theorem reads_perform {step : Step} (h : step = .snapshot name ∨ step = .schema name) (s : Server)
    (past : List Event) : i.Reads s past name ((i.perform true step).run s past) := by
  rcases h with rfl | rfl
  · exact (reads_snapshot s past).bind fun _ => silent_pure _
  · refine .bind ?_ fun _ => silent_pure _
    exact (reads_snapshot s past).bind fun _ _ _ => rfl

/-- What is asked about a catalog is asked of the catalog. -/
theorem exists_query_of_mem_questions {names : List String} {e : Event}
    (he : e ∈ i.questions name names) : ∃ query, e = .query query := by
  rcases List.mem_cons.mp he with rfl | he
  · exact ⟨_, rfl⟩
  · obtain ⟨table, -, he⟩ := List.mem_flatMap.mp he
    rcases List.mem_pair.mp he with rfl | rfl <;> exact ⟨_, rfl⟩

/-- The driver's faults, and while connecting the system's, say that the database cannot be reached
or cannot be read. -/
theorem Step.isConnection_told {step : Step} {fault : ServerFault}
    (h : fault.origin = .driver ∨ step = .enter ∧ fault.origin = .system) :
    (step.told fault).isConnection := by
  rcases h with h | ⟨rfl, h⟩
  · cases step <;> simp [Step.told, connectError, queryError, h, SessionError.isConnection]
  · simp [Step.told, connectError, h, SessionError.isConnection]

theorem run_perform_of_not_connected {step : Step} (asks : step.asks) (s : Server)
    (past : List Event) :
    (i.perform false step).run s past = ⟨[], [], .error .notConnected⟩ := by
  cases step with
  | enter | leave => cases asks
  | test | snapshot | schema => rfl

/-- A step that enters does what entering does. -/
theorem run_perform_enter (s : Server) (past : List Event) :
    (i.perform connected .enter).run s past =
      ⟨(i.enter.run s past).events, (i.enter.run s past).entries,
        (i.enter.run s past).outcome.map fun _ => .entered⟩ := by
  unfold perform
  cases h : (i.enter.run s past).outcome with
  | error error =>
      rw [run_bind_error h]
      rfl
  | ok =>
      rw [run_bind_ok h]
      simp [Except.map]

/-- A test is one question. -/
theorem events_perform_test (s : Server) (past : List Event) :
    ((i.perform true .test).run s past).events = [Event.query .probe] := by
  have htest : ((test true).run s past).events = [Event.query .probe] := by
    unfold test requireConnection
    rw [if_pos rfl, run_bind_ok (x := pure ()) (a := ()) rfl,
      run_bind_silent fun _ => silent_pure _]
    rfl
  unfold perform
  rw [run_bind_silent fun _ => silent_pure _, htest]

/-- **Every step behaves**, whatever the server answers. -/
theorem behaves_perform (i : Introspector) (s : Server) (past : List Event) (connected : Bool)
    (step : Step) :
    i.Behaves s past connected step ((i.perform connected step).run s past) where
  unconnected asks h := by
    subst h
    rw [run_perform_of_not_connected asks]
    exact ⟨rfl, rfl⟩
  kept failed := by
    rw [failed]
    cases step <;> rfl
  enters h := by
    subst h
    rw [run_perform_enter]
    cases hconnector : i.connector with
    | error fault =>
        rw [i.enter_run_error s past hconnector]
        exact .inl ⟨fault, rfl, rfl, rfl⟩
    | ok c =>
        rw [i.enter_run_ok s past hconnector]
        refine .inr ⟨c, rfl, rfl, ?_⟩
        cases s.accepts (past ++ [Event.connect c]) with
        | ok => exact ⟨fun _ => rfl, fun _ => rfl⟩
        | error fault => exact ⟨nofun, nofun⟩
  leaves h := by
    subst h
    cases connected <;> exact ⟨rfl, rfl⟩
  asks asks e he := by
    cases connected with
    | false =>
        rw [run_perform_of_not_connected asks] at he
        cases he
    | true =>
        have hreads {name : Option String} (h : step = .snapshot name ∨ step = .schema name) :
            ∃ query, e = .query query := by
          obtain ⟨names, hbegins, -⟩ := reads_perform (i := i) h s past
          exact exists_query_of_mem_questions (hbegins.subset he)
        cases step with
        | enter | leave => cases asks
        | test =>
            rw [events_perform_test, List.mem_singleton] at he
            exact ⟨_, he⟩
        | snapshot name => exact hreads (.inl rfl)
        | schema name => exact hreads (.inr rfl)
  stops events refused := by
    obtain ⟨hafter, houtcome⟩ := (tells_perform i connected step).stops events refused
    exact ⟨hafter, houtcome, Step.isConnection_told⟩
  fails failed := (tells_perform i connected step).fails failed
  reads h isConnected := by
    subst isConnected
    exact reads_perform h s past

/-! ### Every sequence of steps -/

/-- The steps so far, with what came of them. -/
abbrev History : Type := List (Step × Run SessionError Result)

namespace History

/-- The events of all the steps. -/
def events (history : History) : List Event := history.flatMap fun x => x.2.events

/-- Whether the introspector has a connection after the steps. -/
def connection (history : History) : Bool :=
  history.foldl (fun connected x => x.1.connects connected x.2.outcome) false

/-- Some `enter` has succeeded, and there was no `leave` since. -/
def Connected (history : History) : Prop :=
  ∃ earlier r later, history = earlier ++ (Step.enter, r) :: later ∧
    (∃ result, r.outcome = .ok result) ∧ ∀ x ∈ later, x.1 ≠ Step.leave

/-- Introspecting is connected after a step exactly if the step entered, or did not leave what was
connected before. -/
theorem connected_concat_iff {history : History} {step : Step} {r : Run SessionError Result} :
    Connected (history ++ [(step, r)]) ↔
      (step = .enter ∧ ∃ result, r.outcome = .ok result) ∨ (step ≠ .leave ∧ history.Connected) := by
  constructor
  · rintro ⟨earlier, r', later, h, hok, hlater⟩
    rcases List.eq_nil_or_concat later with rfl | ⟨later, x, rfl⟩
    · obtain ⟨-, hx⟩ := List.append_inj' h rfl
      obtain ⟨rfl, rfl⟩ := Prod.mk.inj (List.cons.inj hx).1
      exact .inl ⟨rfl, hok⟩
    · rw [List.concat_eq_append] at h hlater
      rw [← List.cons_append, ← List.append_assoc] at h
      obtain ⟨rfl, hx⟩ := List.append_inj' h rfl
      obtain rfl := (List.cons.inj hx).1
      exact .inr ⟨hlater (step, r) (by simp), earlier, r', later, rfl, hok,
        fun y hy => hlater y (List.mem_append_left _ hy)⟩
  · rintro (⟨rfl, hok⟩ | ⟨hstep, earlier, r', later, rfl, hok, hlater⟩)
    · exact ⟨history, r, [], rfl, hok, nofun⟩
    · refine ⟨earlier, r', later ++ [(step, r)], by simp, hok, fun x hx => ?_⟩
      rcases List.mem_append.mp hx with hx | hx
      · exact hlater x hx
      · rw [List.mem_singleton.mp hx]
        exact hstep

/-- An introspector that always leaves when it is told to is connected exactly when some `enter` has
succeeded since. -/
theorem connection_iff {history : History}
    (leaves : ∀ r, (Step.leave, r) ∈ history → ∃ result, r.outcome = .ok result) :
    history.connection = true ↔ history.Connected := by
  induction history using List.reverseRecOn with
  | nil => exact ⟨nofun, fun ⟨_, _, _, h, _⟩ => absurd h (by simp)⟩
  | append_singleton history x ih =>
      obtain ⟨step, r⟩ := x
      have hhistory := ih fun r hr => leaves r (List.mem_append_left _ hr)
      have hconnection : connection (history ++ [(step, r)]) =
          step.connects (connection history) r.outcome := by
        simp [connection]
      rw [connected_concat_iff, ← hhistory, hconnection]
      cases step with
      | enter => cases r.outcome <;> simp [Step.connects]
      | leave =>
          obtain ⟨result, hresult⟩ := leaves r (by simp)
          simp [Step.connects, hresult]
      | test | snapshot | schema => simp [Step.connects]

end History

theorem length_runs (i : Introspector) (s : Server) (past : List Event) (connected : Bool)
    (steps : List Step) : (i.runs s past connected steps).length = steps.length := by
  induction steps generalizing past connected with
  | nil => rfl
  | cons step steps ih => exact congrArg (· + 1) (ih _ _)

/-- Each run is that of its step, with what the steps before it have made of the connection. -/
theorem run_eq_of_zip_runs {s : Server} {past : List Event} {steps : List Step} {history : History}
    {step : Step} {r : Run SessionError Result} {later : History}
    (h : steps.zip (i.runs s past connected steps) = history ++ (step, r) :: later) :
    r = (i.perform (history.foldl (fun c x => x.1.connects c x.2.outcome) connected) step).run s
      (past ++ history.events) := by
  induction history generalizing past connected steps with
  | nil =>
      cases steps with
      | nil => cases h
      | cons first steps =>
          obtain ⟨rfl, rfl⟩ := Prod.mk.inj (List.cons.inj h).1
          simp [History.events]
  | cons x history ih =>
      cases steps with
      | nil => cases h
      | cons first steps =>
          obtain ⟨rfl, hrest⟩ := List.cons.inj h
          rw [ih hrest]
          simp [History.events]

/-- **An introspector keeps its connection**: in every sequence of steps, whatever the server
answers, there is a connection exactly if some `enter` has succeeded since the last `leave`, and
each step does with it, or without it, what it should. -/
theorem runs_behave (i : Introspector) (s : Server) (past : List Event) (steps : List Step) :
    (i.runs s past false steps).length = steps.length ∧
      ∀ history later : History, steps.zip (i.runs s past false steps) = history ++ later →
        (history.connection = true ↔ history.Connected) ∧
          ∀ step r rest, later = (step, r) :: rest →
            r = (i.perform history.connection step).run s (past ++ history.events) ∧
              i.Behaves s (past ++ history.events) history.connection step r := by
  refine ⟨i.length_runs s past false steps, fun history later h => ⟨?_, ?_⟩⟩
  · refine History.connection_iff fun r hr => ?_
    obtain ⟨before, after, rfl⟩ := List.append_of_mem hr
    rw [List.append_assoc, List.cons_append] at h
    rw [run_eq_of_zip_runs h]
    exact ⟨.left, ((i.behaves_perform s _ _ .leave).leaves rfl).1⟩
  · rintro step r rest rfl
    have hr := run_eq_of_zip_runs h
    refine ⟨hr, ?_⟩
    rw [hr]
    exact i.behaves_perform s _ _ step

/-- A reader of a database on this machine. -/
def localReader : Introspector :=
  ⟨.postgres, "postgresql://localhost/app", ["schema_migrations"], 10⟩

/-- A server with three tables, which does not show the constraints of the last. -/
def denying : Server where
  accepts _ := .ok ()
  probes _ := .ok [[some (.int 1)]]
  tables _ := .ok ["note", "schema_migrations", "tag"]
  columns _ := .ok []
  constraints past :=
    if past.getLast? = some (.query (.constraints (some "public") "tag")) then
      .error ⟨.driver, "denied"⟩ else .ok []

/-- A catalog that is denied in the middle of it leaves the connection to be closed. -/
theorem runs_denied :
    ∃ before after : History, ∃ r closed,
      [Step.test, .enter, .snapshot none, .leave].zip
          (localReader.runs denying [] false [.test, .enter, .snapshot none, .leave]) =
        before ++ (.snapshot none, r) :: (.leave, closed) :: after ∧
      before.Connected ∧
      r.events = localReader.questions none ["note", "schema_migrations", "tag"] ∧
      r.outcome = .error (.unreadable "denied") ∧
      History.Connected (before ++ [(.snapshot none, r)]) ∧ closed.events = [.close] := by
  let runs := localReader.runs denying [] false [.test, .enter, .snapshot none, .leave]
  have hbehave := (localReader.runs_behave denying [] [.test, .enter, .snapshot none, .leave]).2
  let trace : History := [Step.test, .enter, .snapshot none, .leave].zip runs
  refine ⟨trace.take 2, [], runs[2], runs[3], rfl, ?_, rfl, rfl, ?_, ?_⟩
  · exact (hbehave (trace.take 2) (trace.drop 2) rfl).1.mp rfl
  · exact (hbehave (trace.take 3) (trace.drop 3) rfl).1.mp rfl
  · exact (((hbehave (trace.take 3) (trace.drop 3) rfl).2 _ _ _ rfl).2.leaves rfl).2

end Introspector

end Schemata
