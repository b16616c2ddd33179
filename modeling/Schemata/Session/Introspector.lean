import Schemata.Catalog.Deployed
import Schemata.Session

/-!
# Sessions — introspectors

Reading the catalog of a database.  An introspector is connected by `enter` and disconnected by
`leave`; while it is connected it can test the connection, and read the catalog as a snapshot or as
a schema.  To read the catalog it asks for the names of the tables once, and then, for each table
that is not excluded, for its columns and its constraints.

`Introspector.perform` is one step, and `Step.connects` says what becomes of the connection: only a
step that succeeds changes it.
-/

namespace Schemata

/-- The tables that are left out unless something else is asked for. -/
def usuallyExcluded : List String := ["schema_migrations", "pg_stat_statements", "spatial_ref_sys"]

/-- A reader of the catalog of a database. -/
structure Introspector where
  backend : Backend
  url : String
  excluded : List String := usuallyExcluded
  timeout : Int := 10
  deriving DecidableEq, Repr

namespace Introspector

/-- How the introspector connects. -/
def connector (i : Introspector) : Except UrlFault Connector :=
  match i.backend with
  | .postgres => .ok (.address i.url i.timeout)
  | .mysql => (Login.ofUrl i.url i.timeout).map .login

/-- The fault of a connection that is not made. -/
def connectError (f : ServerFault) : SessionError :=
  if f.origin = .other then .server f else .unreachable f.message

/-- The fault of a question that is not answered: one of the driver is told as `error`. -/
def queryError (error : String → SessionError) (f : ServerFault) : SessionError :=
  if f.origin = .driver then error f.message else .server f

/-- Connects. -/
def enter (i : Introspector) : Session SessionError Unit := do
  let c ← Session.ofExcept (i.connector.mapError .address)
  (Session.ask (.connect c) Server.accepts).mapError connectError

/-- Disconnects, if there is a connection. -/
def leave (connected : Bool) : Session SessionError Unit :=
  if connected then Session.emit .close else pure ()

/-- Fails unless there is a connection. -/
def requireConnection (connected : Bool) : Session SessionError Unit :=
  if connected then pure () else Session.fail .notConnected

/-- Whether the database answers. -/
def test (connected : Bool) : Session SessionError Bool := do
  requireConnection connected
  let rows ← (Session.ask (.query .probe) Server.probes).mapError (queryError .untested)
  pure (isOne rows)

/-- The schema of the database that is asked about: Postgres has several in one database, and
`public` is the usual one. -/
def namespace? (i : Introspector) (schema : Option String) : Option String :=
  match i.backend with
  | .postgres => some (orIfEmpty (schema.getD "") "public")
  | .mysql => none

/-- One table of the catalog. -/
def table (i : Introspector) (schema : Option String) (name : String) :
    Session ServerFault Table := do
  let space := i.namespace? schema
  let columns ← Session.ask (.query (.columns space name)) Server.columns
  let constraints ← Session.ask (.query (.constraints space name)) Server.constraints
  pure (Table.ofRows i.backend.dialect name columns constraints)

/-- The tables of the catalog that are not excluded. -/
def tables (i : Introspector) (schema : Option String) : Session ServerFault (List Table) := do
  let names ← Session.ask (.query (.tables (i.namespace? schema))) Server.tables
  (names.filter fun name => !i.excluded.contains name).mapM (i.table schema)

/-- The catalog. -/
def snapshot (i : Introspector) (connected : Bool) (schema : Option String) :
    Session SessionError Snapshot := do
  requireConnection connected
  let tables ← (i.tables schema).mapError (queryError .unreadable)
  let snapshot := Snapshot.ofList tables
  Session.note .debug s!"Introspected {snapshot.length} tables"
  pure snapshot

/-- The schema that the catalog shows. -/
def schema (i : Introspector) (connected : Bool) (schema : Option String) :
    Session SessionError Schema := do
  let snapshot ← i.snapshot connected schema
  Session.ofJournal ((snapshot.schema i.backend.dialect).mapError .numeral)

/-- The schema of a database that is connected to for no more than that. -/
def deployed (i : Introspector) : Session SessionError Schema := do
  i.enter
  (i.schema true none).andFinally (leave true)

/-- What can be done with an introspector. -/
inductive Step where
  | enter
  | leave
  | test
  | snapshot (schema : Option String)
  | schema (schema : Option String)
  deriving DecidableEq, Repr

/-- What comes of a step. -/
inductive Result where
  | entered
  | left
  | tested (answers : Bool)
  | snapshot (snapshot : Snapshot)
  | schema (schema : Schema)

/-- One step. -/
def perform (i : Introspector) (connected : Bool) : Step → Session SessionError Result
  | .enter => do
    i.enter
    pure .entered
  | .leave => do
    leave connected
    pure .left
  | .test => do
    let answers ← test connected
    pure (.tested answers)
  | .snapshot name => do
    let snapshot ← i.snapshot connected name
    pure (.snapshot snapshot)
  | .schema name => do
    let schema ← i.schema connected name
    pure (.schema schema)

/-- Whether there is a connection after a step with this outcome. -/
def Step.connects (connected : Bool) (step : Step) (outcome : Except SessionError Result) : Bool :=
  match step, outcome with
  | .enter, .ok _ => true
  | .leave, .ok _ => false
  | _, _ => connected

/-- The runs of steps, one after the other. -/
def runs (i : Introspector) (s : Server) (past : List Event) (connected : Bool) :
    List Step → List (Run SessionError Result)
  | [] => []
  | step :: steps =>
    let r := (i.perform connected step).run s past
    r :: i.runs s (past ++ r.events) (step.connects connected r.outcome) steps

end Introspector

end Schemata
