import Schemata.Plan
import Schemata.Session.Engine
import Schemata.Session.Introspector

/-!
# Sessions — migrations

Bringing a database in line with a schema.  The deployed schema is read and the way from it to the
desired one is planned; if there is anything to do, and it is not only to be shown, the script is
executed in one transaction.  A database without models counts as fresh, and gets everything.

An engine that was created is disposed of whatever happens.  A failure while executing is a failed
migration and names the whole script, unless the client says itself that the database cannot be
reached.
-/

namespace Schemata

/-- Why a migration failed. -/
inductive MigrationError where
  | session (error : SessionError)
  | plan (error : PlanError)
  | failed (script : Script) (cause : ServerFault)
  deriving DecidableEq, Repr

def MigrationError.message : MigrationError → String
  | .session error => error.message
  | .plan error => error.message
  | .failed _ cause => s!"Failed to apply migration: {cause.message}"

/-- A migration that succeeded. -/
structure Migration where
  script : Script
  executed : Nat
  isFresh : Bool
  isDryRun : Bool
  deriving DecidableEq, Repr

/-- Whether there was anything to do. -/
def Migration.hasChanges (m : Migration) : Bool := !m.script.isEmpty

/-- How a migration is made. -/
structure MigrationOptions where
  isDryRun : Bool := false
  quotes : Bool := false
  timeout : Int := 10
  deriving DecidableEq, Repr

namespace Target

/-- The introspector of a target. -/
def introspector (t : Target) (timeout : Int) : Introspector :=
  { backend := t.backend, url := t.catalogUrl, timeout }

/-- The engine of a target. -/
def engine (t : Target) (timeout : Int) : Engine :=
  { backend := t.backend, url := t.catalogUrl, timeout }

end Target

/-- The script from a deployed schema to the desired one; a schema without models is as good as
none. -/
def planFrom (style : Style) (desired deployed : Schema) : Planning Script :=
  planScript style desired (if deployed.models.isEmpty then none else some deployed)

/-- Executes a script with an engine, which is then disposed of. -/
def apply (script : Script) : Session MigrationError Nat :=
  Session.andFinally
    (do
      let outcome ← (Engine.executeAll script.executable).attempt
      match outcome with
      | .ok count => pure count
      | .error fault =>
        if fault.origin = .client then Session.fail (.session (.server fault))
        else do
          Session.note .error s!"Migration failed: {fault.message}"
          Session.fail (.failed script fault))
    Engine.dispose

/-- Tells which schema is deployed. -/
def noteDeployed (deployed : Schema) : Session MigrationError Unit :=
  if deployed.models.isEmpty then Session.note .info "No deployed schema found, starting fresh"
  else Session.note .info s!"Deployed schema has {deployed.models.length} models"

/-- Brings the database at a target in line with a schema. -/
def migrate (desired : Schema) (t : Target) (options : MigrationOptions) :
    Session MigrationError Migration := do
  let deployed ← (t.introspector options.timeout).deployed.mapError .session
  noteDeployed deployed
  let script ← Session.ofJournal
    ((planFrom ⟨t.backend.dialect, options.quotes⟩ desired deployed).mapError .plan)
  let isFresh := deployed.models.isEmpty
  if script.isEmpty then do
    Session.note .info "No migration needed"
    pure ⟨script, 0, isFresh, options.isDryRun⟩
  else if options.isDryRun then
    pure ⟨script, 0, isFresh, true⟩
  else do
    (t.engine options.timeout).create.mapError fun fault => .session (.server fault)
    Session.note .info s!"Applying migration ({script.executable.length} statements)"
    let executed ← apply script
    Session.note .info "Migration applied successfully"
    pure ⟨script, executed, isFresh, false⟩

end Schemata
