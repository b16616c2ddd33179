import Schemata.Command
import Schemata.CommandLine.Invocation
import Schemata.Display.SchemaTable
import Schemata.Plan
import Schemata.TypeModule

/-!
# Commands — tasks

What each task does.  Every task reads the settings first.  Those that need a database find out
which before they compile anything, so that a variable that is not set is told at once; those that
need a schema then compile it, and print which file they are compiling.

Only `generate` and `types` are there to write files; `migrate` writes the type declarations as
soon as the schema is compiled, whether or not it goes on to change the database.
-/

namespace Schemata

/-- The file of settings that is read unless another is asked for. -/
def usualSettingsFile : String := "dbschema.toml"

/-- A line that tells of success. -/
def printSuccess (text : String) : Command Unit :=
  Command.printMarked ("[bold green]v[/bold green] " ++ text)

/-- Compiles a file. -/
def compilePath (path : Path) (isStrict : Bool) : Command Schema := do
  Command.printMarked ("Compiling [cyan]" ++ path.text ++ "[/cyan]...")
  let file ← Command.request (.read path)
  let found ← Command.ofJournal .source (compileFile path.text file isStrict)
  Command.ofExcept .source found.accept

/-- Writes the type declarations of a schema. -/
def writeTypes (s : Schema) (path : Path) : Command Unit := do
  Command.makeDirectory path.parent
  let text ← Command.ofJournal id s.typeModule
  Command.write path text
  Command.note .info s!"Wrote type declarations to {path.text}"

/-- The file that a task is to use: the one that is given, or else the settled one. -/
def chosenFile (given : Option String) (settled : String) : Path :=
  Path.ofString (orIfEmpty (given.getD "") settled)

namespace Invocation

/-- The settings that hold. -/
def settings (i : Invocation) : Command Settings := do
  let asked := i.settingsFile.getD ""
  if asked.isEmpty then
    let directory ← Command.request .workingDirectory
    let path := directory.join (Path.ofString usualSettingsFile)
    let file ← Command.request (.read path)
    Command.ofExcept .settings (Settings.ofFile path.text false file)
  else
    let path := Path.ofString asked
    let file ← Command.request (.read path)
    Command.ofExcept .settings (Settings.ofFile path.text true file)

/-- The database to work on. -/
def target (i : Invocation) (s : Settings) : Command Target := do
  let variableName := i.variableFront.getD s.variableFront ++ s.variableName
  let value ← Command.request (.lookUp variableName)
  Command.ofExcept .target (Target.resolve variableName value)

end Invocation

namespace Command

/-- Compiles the schema, and tells how many models it has. -/
def check (s : Settings) (schemaFile : Option String) (isStrict shows : Bool) : Command Unit := do
  let schema ← compilePath (chosenFile schemaFile s.schemaFile) (isStrict || s.strict)
  printLine ""
  printSuccess s!"Schema is valid: [bold]{schema.models.length}[/bold] models"
  if shows then printGrid (schema.table "Schema")

/-- Prints or writes the script that creates a database of the schema. -/
def generate (s : Settings) (schemaFile : Option String) (d : Dialect) (output : Option String)
    (quotes : Bool) : Command Unit := do
  let schema ← compilePath (chosenFile schemaFile s.schemaFile) s.strict
  let script ← ofJournal .plan (planScript ⟨d, quotes || s.quotes⟩ schema none)
  let name := output.getD ""
  if name.isEmpty then printLine script.toSql
  else
    write (Path.ofString name) (script.toSql ++ "\n")
    printSuccess ("Wrote " ++ d.name ++ " script to [cyan]" ++ name ++ "[/cyan]")

/-- Writes the type declarations of the schema. -/
def types (s : Settings) (schemaFile output : Option String) : Command Unit := do
  let schema ← compilePath (chosenFile schemaFile s.schemaFile) s.strict
  let path := chosenFile output s.typesFile
  writeTypes schema path
  printSuccess ("Wrote types to [cyan]" ++ path.text ++ "[/cyan]")

/-- Shows the schema that is deployed. -/
def introspect (s : Settings) (t : Target) : Command Unit := do
  printMarked
    ("Introspecting [bold cyan]" ++ t.backend.dialect.name ++ "[/bold cyan] database...")
  let outcome ← request (.introspect t s.timeout)
  let schema ← ofExcept .session outcome
  if schema.models.isEmpty then printMarked "[yellow]No tables found.[/yellow]"
  else printGrid (schema.table "Deployed Schema")

/-- Tells what a migration did. -/
def tellMigration (m : Migration) : Command Unit := do
  if m.isFresh then printLine "\n--- No Previous Schema Found, Starting Fresh ---"
  if m.hasChanges then
    printLine "\n--- Generated Migration SQL ---"
    printLine m.script.toSql
    printLine ""
    if m.isDryRun then
      printLine "Dry run: nothing applied. Remove --dry-run to apply."
    else
      printSuccess s!"Migration applied successfully ({m.executed} statements)"
  else
    printLine ""
    printSuccess "No migration needed."

/-- Brings the database in line with the schema. -/
def migrate (s : Settings) (t : Target) (schemaFile : Option String) (isDryRun skipsTypes : Bool) :
    Command Unit := do
  let schema ← compilePath (chosenFile schemaFile s.schemaFile) s.strict
  if !skipsTypes then
    let path := Path.ofString s.typesFile
    writeTypes schema path
    printMarked ("Types written to [cyan]" ++ path.text ++ "[/cyan]")
  let outcome ← request
    (.migrate schema t { isDryRun, quotes := s.quotes, timeout := s.timeout })
  let migration ← ofExcept .migration outcome
  tellMigration migration

end Command

/-- Does what is asked for. -/
def Invocation.perform (i : Invocation) : Command Unit := do
  let s ← i.settings
  match i.task with
  | .check schemaFile isStrict shows => Command.check s schemaFile isStrict shows
  | .generate schemaFile d output quotes => Command.generate s schemaFile d output quotes
  | .types schemaFile output => Command.types s schemaFile output
  | .introspect => do
    let t ← i.target s
    Command.introspect s t
  | .migrate schemaFile isDryRun skipsTypes => do
    let t ← i.target s
    Command.migrate s t schemaFile isDryRun skipsTypes

end Schemata
