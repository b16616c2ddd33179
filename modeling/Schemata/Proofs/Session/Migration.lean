import Schemata.Proofs.Outcome
import Schemata.Proofs.Session.Transaction
import Schemata.Session.Migration

/-!
# Proofs — sessions — one migration

What a migration does, and how it ends, whatever is deployed and whatever the server answers
(`Migrates`).  First the catalog is read (`Introspector.Deploys`): a connection that was made is
closed, once, after nothing but questions.  Then, if there is something to do and it is to be done,
one engine is created for one transaction (`Engine.Applies`), and disposed of at the very end; if
none can be created, nothing follows.

`migrates_run` says that every run of `migrate` is such a migration.
-/

namespace Schemata

namespace Session

variable {ε ε' α β : Type}

/-- Nothing is done but to ask the catalog. -/
def Asks (x : Session ε α) : Prop :=
  ∀ s past, ∃ queries : List Query, (x.run s past).events = queries.map .query

theorem asks_pure (a : α) : Asks (pure a : Session ε α) := fun _ _ => ⟨[], rfl⟩

theorem asks_note (level : Level) (text : String) : Asks (note level text : Session ε Unit) :=
  fun _ _ => ⟨[], rfl⟩

theorem asks_ofJournal (j : Journal ε α) : Asks (ofJournal j) := fun _ _ => ⟨[], rfl⟩

theorem asks_query (q : Query) (reply : Server → List Event → Except ServerFault α) :
    Asks (ask (.query q) reply) := fun _ _ => ⟨[q], rfl⟩

theorem Asks.mapError {x : Session ε α} (h : x.Asks) (f : ε → ε') : (x.mapError f).Asks := h

/-- Work that is done in two parts asks what the parts do. -/
theorem Asks.bind {x : Session ε α} {f : α → Session ε β} (hx : x.Asks) (hf : ∀ a, (f a).Asks) :
    (x >>= f).Asks := by
  intro s past
  obtain ⟨queries, hqueries⟩ := hx s past
  cases h : (x.run s past).outcome with
  | error e =>
      rw [run_bind_error h]
      exact ⟨queries, hqueries⟩
  | ok a =>
      obtain ⟨next, hnext⟩ := hf a s (past ++ (x.run s past).events)
      rw [run_bind_ok h, hnext, hqueries]
      exact ⟨queries ++ next, List.map_append.symm⟩

/-- Work that is done for each thing asks what it does for each. -/
theorem Asks.mapM {f : α → Session ε β} (hf : ∀ a, (f a).Asks) (xs : List α) :
    (xs.mapM f).Asks := by
  -- the values so far are collected along the way
  have hloop : ∀ ys : List β, (List.mapM.loop f xs ys).Asks := by
    induction xs with
    | nil => exact fun ys => asks_pure _
    | cons x xs ih => exact fun ys => (hf x).bind fun y => ih (y :: ys)
  exact hloop []

end Session

/-! ### What is deployed -/

namespace Introspector

open Session

variable (i : Introspector) (s : Server) (past : List Event)

/-- To read the tables asks the catalog, and does nothing else. -/
theorem asks_tables (name : Option String) : (i.tables name).Asks := by
  unfold tables
  refine (asks_query _ _).bind fun names => .mapM (fun table => ?_) _
  unfold Introspector.table
  exact (asks_query _ _).bind fun _ => (asks_query _ _).bind fun _ => asks_pure _

theorem asks_schema (name : Option String) : (i.schema true name).Asks := by
  unfold schema snapshot requireConnection
  rw [if_pos rfl]
  refine .bind (.bind (asks_pure _) fun _ => ?_) fun _ => asks_ofJournal _
  exact ((i.asks_tables name).mapError _).bind fun _ => (asks_note _ _).bind fun _ => asks_pure _

/-- The catalog is read on one connection.  None is asked for without an address; if it is refused,
nothing follows; and if it is made, there are questions, and it is closed whatever came of them. -/
inductive Deploys (i : Introspector) (s : Server) (past : List Event) :
    List Event → Except SessionError Schema → Prop
  | noAddress {fault : UrlFault} (connector : i.connector = .error fault) :
      Deploys i s past [] (.error (.address fault))
  | refused {c : Connector} {fault : ServerFault} (connector : i.connector = .ok c)
      (refused : s.accepts (past ++ [Event.connect c]) = .error fault) :
      Deploys i s past [.connect c] (.error (connectError fault))
  | connected {c : Connector} {queries : List Query} (connector : i.connector = .ok c)
      (accepted : s.accepts (past ++ [Event.connect c]) = .ok ())
      (asked : ((i.schema true none).run s (past ++ [Event.connect c])).events =
        queries.map .query) :
      Deploys i s past (Event.connect c :: queries.map .query ++ [Event.close])
        ((i.schema true none).run s (past ++ [Event.connect c])).outcome

/-- Without an address that makes sense, no connection is asked for. -/
theorem enter_run_error {fault : UrlFault} (h : i.connector = .error fault) :
    i.enter.run s past = ⟨[], [], .error (.address fault)⟩ := by
  unfold enter
  rw [run_bind_error (e := .address fault)]
  · rfl
  · rw [run_ofExcept, h]
    rfl

/-- Else one connection is asked for, and there is one if the server makes it. -/
theorem enter_run_ok {c : Connector} (h : i.connector = .ok c) :
    i.enter.run s past =
      ⟨[.connect c], [], (s.accepts (past ++ [Event.connect c])).mapError connectError⟩ := by
  unfold enter
  rw [run_bind_ok (a := c)]
  · simp
  · rw [run_ofExcept, h]
    rfl

/-- **Reading what is deployed** happens in one of these ways. -/
theorem deploys_run :
    i.Deploys s past (i.deployed.run s past).events (i.deployed.run s past).outcome := by
  unfold deployed
  cases hconnector : i.connector with
  | error fault =>
      have hrun := i.enter_run_error s past hconnector
      rw [run_bind_error (e := .address fault) (by rw [hrun]), hrun]
      exact .noAddress hconnector
  | ok c =>
      have hrun := i.enter_run_ok s past hconnector
      cases haccepts : s.accepts (past ++ [Event.connect c]) with
      | error fault =>
          rw [haccepts] at hrun
          rw [run_bind_error (e := connectError fault) (by rw [hrun]; rfl), hrun]
          exact .refused hconnector haccepts
      | ok =>
          rw [haccepts] at hrun
          rw [run_bind_ok (a := ()) (by rw [hrun]; rfl), hrun]
          obtain ⟨queries, hqueries⟩ := i.asks_schema none s (past ++ [Event.connect c])
          show Deploys i s past (_ :: ((Session.andFinally _ (emit .close)).run s _).events)
            ((Session.andFinally _ (emit .close)).run s _).outcome
          rw [run_andFinally_emit, hqueries]
          exact .connected hconnector haccepts hqueries

end Introspector

/-! ### What is done about it -/

/-- A fault while a script is applied is told with the whole script, unless the client knows already
that the database cannot be reached. -/
def MigrationError.ofFault (script : Script) (fault : ServerFault) : MigrationError :=
  if fault.origin = .client then .session (.server fault) else .failed script fault

/-- A migration, and how it ends.  Nothing is done after the catalog was read unless there is a
script that is not empty, and it is not only to be shown; then one engine is created, for one
transaction with the statements of the script, and last it is disposed of.  Should the engine be
refused, that is the end. -/
inductive Migrates (desired : Schema) (t : Target) (options : MigrationOptions) (s : Server)
    (past : List Event) : List Event → Except MigrationError Migration → Prop
  | unread {events : List Event} {error : SessionError}
      (deploys : (t.introspector options.timeout).Deploys s past events (.error error)) :
      Migrates desired t options s past events (.error (.session error))
  | unplanned {events : List Event} {deployed : Schema} {error : PlanError}
      (deploys : (t.introspector options.timeout).Deploys s past events (.ok deployed))
      (planned : (planFrom ⟨t.backend.dialect, options.quotes⟩ desired deployed).outcome =
        .error error) :
      Migrates desired t options s past events (.error (.plan error))
  | unneeded {events : List Event} {deployed : Schema} {script : Script}
      (deploys : (t.introspector options.timeout).Deploys s past events (.ok deployed))
      (planned : (planFrom ⟨t.backend.dialect, options.quotes⟩ desired deployed).outcome =
        .ok script)
      (empty : script.isEmpty = true) :
      Migrates desired t options s past events
        (.ok ⟨script, 0, deployed.models.isEmpty, options.isDryRun⟩)
  | shown {events : List Event} {deployed : Schema} {script : Script}
      (deploys : (t.introspector options.timeout).Deploys s past events (.ok deployed))
      (planned : (planFrom ⟨t.backend.dialect, options.quotes⟩ desired deployed).outcome =
        .ok script)
      (nonempty : script.isEmpty = false) (isDryRun : options.isDryRun = true) :
      Migrates desired t options s past events (.ok ⟨script, 0, deployed.models.isEmpty, true⟩)
  | uncreated {events : List Event} {deployed : Schema} {script : Script} {fault : ServerFault}
      (deploys : (t.introspector options.timeout).Deploys s past events (.ok deployed))
      (planned : (planFrom ⟨t.backend.dialect, options.quotes⟩ desired deployed).outcome =
        .ok script)
      (nonempty : script.isEmpty = false) (isDryRun : options.isDryRun = false)
      (refused : s.creates
        (past ++ events ++ [Event.createEngine t.backend t.migrationUrl options.timeout]) =
          .error fault) :
      Migrates desired t options s past
        (events ++ [Event.createEngine t.backend t.migrationUrl options.timeout])
        (.error (.session (.server fault)))
  | applied {events work : List Event} {deployed : Schema} {script : Script}
      (deploys : (t.introspector options.timeout).Deploys s past events (.ok deployed))
      (planned : (planFrom ⟨t.backend.dialect, options.quotes⟩ desired deployed).outcome =
        .ok script)
      (nonempty : script.isEmpty = false) (isDryRun : options.isDryRun = false)
      (created : s.creates
        (past ++ events ++ [Event.createEngine t.backend t.migrationUrl options.timeout]) = .ok ())
      (applies : Engine.Applies s
        (past ++ events ++ [Event.createEngine t.backend t.migrationUrl options.timeout])
        script.executable work (.ok script.executable.length)) :
      Migrates desired t options s past
        (events ++ Event.createEngine t.backend t.migrationUrl options.timeout :: work ++
          [Event.dispose])
        (.ok ⟨script, script.executable.length, deployed.models.isEmpty, false⟩)
  | failed {events work : List Event} {deployed : Schema} {script : Script} {fault : ServerFault}
      (deploys : (t.introspector options.timeout).Deploys s past events (.ok deployed))
      (planned : (planFrom ⟨t.backend.dialect, options.quotes⟩ desired deployed).outcome =
        .ok script)
      (nonempty : script.isEmpty = false) (isDryRun : options.isDryRun = false)
      (created : s.creates
        (past ++ events ++ [Event.createEngine t.backend t.migrationUrl options.timeout]) = .ok ())
      (applies : Engine.Applies s
        (past ++ events ++ [Event.createEngine t.backend t.migrationUrl options.timeout])
        script.executable work (.error fault)) :
      Migrates desired t options s past
        (events ++ Event.createEngine t.backend t.migrationUrl options.timeout :: work ++
          [Event.dispose])
        (.error (.ofFault script fault))

/-- If statements were applied, then all of them were. -/
theorem Engine.Applies.count {s : Server} {past events : List Event} {statements : List String}
    {count : Nat} (h : Engine.Applies s past statements events (.ok count)) :
    count = statements.length := by
  cases h with
  | connected _ transacted =>
      cases transacted
      rfl

/-- A script that is to be applied is, and the migration ends as its statements do. -/
theorem Migrates.of_applies {desired deployed : Schema} {t : Target} {options : MigrationOptions}
    {s : Server} {past events work : List Event} {script : Script}
    {outcome : Except ServerFault Nat}
    (deploys : (t.introspector options.timeout).Deploys s past events (.ok deployed))
    (planned : (planFrom ⟨t.backend.dialect, options.quotes⟩ desired deployed).outcome =
      .ok script)
    (nonempty : script.isEmpty = false) (isDryRun : options.isDryRun = false)
    (created : s.creates
      (past ++ events ++ [Event.createEngine t.backend t.migrationUrl options.timeout]) = .ok ())
    (applies : Engine.Applies s
      (past ++ events ++ [Event.createEngine t.backend t.migrationUrl options.timeout])
      script.executable work outcome) :
    Migrates desired t options s past
      (events ++ Event.createEngine t.backend t.migrationUrl options.timeout :: work ++
        [Event.dispose])
      ((outcome.mapError (.ofFault script)).map fun executed =>
        ⟨script, executed, deployed.models.isEmpty, false⟩) := by
  cases outcome with
  | ok executed =>
      obtain rfl := applies.count
      exact .applied deploys planned nonempty isDryRun created applies
  | error fault => exact .failed deploys planned nonempty isDryRun created applies

/-- The outcome of applying a script is that of its statements. -/
theorem apply_run (script : Script) (s : Server) (past : List Event) :
    ((apply script).run s past).events =
        ((Engine.executeAll script.executable).run s past).events ++ [Event.dispose] ∧
      ((apply script).run s past).outcome =
        ((Engine.executeAll script.executable).run s past).outcome.mapError (.ofFault script) := by
  unfold apply Engine.dispose
  rw [Session.run_andFinally_emit, Session.run_attempt_bind]
  cases ((Engine.executeAll script.executable).run s past).outcome with
  | ok count => simp [Except.mapError]
  | error fault =>
      simp only [Except.mapError, MigrationError.ofFault]
      split
      · simp
      · rw [Session.run_note_bind]
        simp

/-- What is deployed is noted in the journal alone. -/
theorem noteDeployed_run (deployed : Schema) (s : Server) (past : List Event) :
    ∃ entries, (noteDeployed deployed).run s past = ⟨[], entries, .ok ()⟩ := by
  unfold noteDeployed
  split <;> exact ⟨_, rfl⟩

/-- What is done with a script that is to be applied. -/
def applying (t : Target) (options : MigrationOptions) (script : Script) (isFresh : Bool) :
    Session MigrationError Migration := do
  (t.engine options.timeout).create.mapError fun fault => .session (.server fault)
  Session.note .info s!"Applying migration ({script.executable.length} statements)"
  let executed ← apply script
  Session.note .info "Migration applied successfully"
  pure ⟨script, executed, isFresh, false⟩

/-- Without an engine nothing is applied. -/
theorem applying_run_of_refused {t : Target} {options : MigrationOptions} {s : Server}
    {past : List Event} {fault : ServerFault}
    (refused : s.creates
      (past ++ [Event.createEngine t.backend t.migrationUrl options.timeout]) = .error fault)
    (script : Script) (isFresh : Bool) :
    (applying t options script isFresh).run s past =
      ⟨[.createEngine t.backend t.migrationUrl options.timeout], [],
        .error (.session (.server fault))⟩ := by
  have houtcome : (((t.engine options.timeout).create.mapError fun fault =>
      MigrationError.session (.server fault)).run s past).outcome =
      .error (.session (.server fault)) := congrArg (Except.mapError _) refused
  unfold applying
  rw [Session.run_bind_error houtcome]
  rfl

/-- With an engine the statements are applied, and the engine is disposed of. -/
theorem applying_run_of_created {t : Target} {options : MigrationOptions} {s : Server}
    {past : List Event}
    (created : s.creates
      (past ++ [Event.createEngine t.backend t.migrationUrl options.timeout]) = .ok ())
    (script : Script) (isFresh : Bool) :
    let event := Event.createEngine t.backend t.migrationUrl options.timeout
    let work := (Engine.executeAll script.executable).run s (past ++ [event])
    let r := (applying t options script isFresh).run s past
    r.events = event :: work.events ++ [Event.dispose] ∧
      r.outcome = (work.outcome.mapError (.ofFault script)).map fun executed =>
        ⟨script, executed, isFresh, false⟩ := by
  intro event work r
  have houtcome : (((t.engine options.timeout).create.mapError fun fault =>
      MigrationError.session (.server fault)).run s past).outcome = .ok () :=
    congrArg (Except.mapError _) created
  have hcreated : ((t.engine options.timeout).create.mapError fun fault =>
      MigrationError.session (.server fault)).run s past = ⟨[event], [], .ok ()⟩ :=
    congrArg (Run.mk [event] []) houtcome
  obtain ⟨hevents, happlied⟩ := apply_run script s (past ++ [event])
  have hrun : r = (applying t options script isFresh).run s past := rfl
  unfold applying at hrun
  rw [Session.run_bind_ok houtcome, hcreated, Session.run_note_bind] at hrun
  rw [hrun]
  cases h : work.outcome with
  | ok executed =>
      rw [Session.run_bind_ok (a := executed) (by rw [happlied, h]; rfl), hevents,
        Session.run_note_bind]
      simp [work, Except.mapError, Except.map]
  | error fault =>
      rw [Session.run_bind_error (e := .ofFault script fault) (by rw [happlied, h]; rfl), hevents]
      simp [work, Except.mapError, Except.map]

/-- **Every migration** reads the catalog on one connection and closes it; then, at most once, it
creates an engine, executes the script in one transaction, and disposes of the engine. -/
theorem migrates_run (desired : Schema) (t : Target) (options : MigrationOptions) (s : Server)
    (past : List Event) :
    Migrates desired t options s past ((migrate desired t options).run s past).events
      ((migrate desired t options).run s past).outcome := by
  have deploys := (t.introspector options.timeout).deploys_run s past
  generalize hread : (t.introspector options.timeout).deployed.run s past = read at deploys
  unfold migrate
  cases hdeployed : read.outcome with
  | error error =>
      rw [hdeployed] at deploys
      rw [Session.run_bind_error (e := .session error)
        (by rw [Session.run_mapError, hread, hdeployed]; rfl), Session.run_mapError, hread]
      exact .unread deploys
  | ok deployed =>
      rw [hdeployed] at deploys
      obtain ⟨entries, hnote⟩ := noteDeployed_run deployed s (past ++ read.events)
      rw [Session.run_bind_ok (a := deployed)
          (by rw [Session.run_mapError, hread, hdeployed]; rfl), Session.run_mapError, hread,
        Session.run_bind_ok (a := ()) (by rw [hnote]), hnote]
      simp only [List.append_nil, List.nil_append]
      cases planned : (planFrom ⟨t.backend.dialect, options.quotes⟩ desired deployed).outcome with
      | error error =>
          rw [Session.run_bind_error (e := .plan error)
            (by rw [Session.run_ofJournal, Journal.outcome_mapError, planned]; rfl)]
          simpa using Migrates.unplanned deploys planned
      | ok script =>
          rw [Session.run_bind_ok (a := script)
            (by rw [Session.run_ofJournal, Journal.outcome_mapError, planned]; rfl)]
          simp only [Session.run_ofJournal, List.append_nil, List.nil_append]
          cases nonempty : script.isEmpty with
          | true =>
              rw [if_pos rfl, Session.run_note_bind]
              simpa using Migrates.unneeded deploys planned nonempty
          | false =>
              rw [if_neg Bool.false_ne_true]
              cases isDryRun : options.isDryRun with
              | true =>
                  rw [if_pos rfl]
                  simpa using Migrates.shown deploys planned nonempty isDryRun
              | false =>
                  rw [if_neg Bool.false_ne_true]
                  change Migrates desired t options s past
                    (read.events ++ ((applying t options script deployed.models.isEmpty).run s
                      (past ++ read.events)).events)
                    ((applying t options script deployed.models.isEmpty).run s
                      (past ++ read.events)).outcome
                  cases created : s.creates (past ++ read.events ++
                      [.createEngine t.backend t.migrationUrl options.timeout]) with
                  | error fault =>
                      rw [applying_run_of_refused created]
                      exact .uncreated deploys planned nonempty isDryRun created
                  | ok =>
                      obtain ⟨hevents, houtcome⟩ := applying_run_of_created created script
                        deployed.models.isEmpty
                      rw [hevents, houtcome, ← List.append_assoc]
                      exact .of_applies deploys planned nonempty isDryRun created
                        (Engine.applies_run ..)

end Schemata
