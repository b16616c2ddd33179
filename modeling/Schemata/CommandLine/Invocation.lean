import Schemata.CommandLine.Options
import Schemata.Dialect

/-!
# Command lines — invocations

What the program is asked to do.  The options that hold for every task come first, then the name of
the task, then its own options.
-/

namespace Schemata

/-- What the program can do. -/
inductive Task where
  | check (schemaFile : Option String) (isStrict shows : Bool)
  | generate (schemaFile : Option String) (dialect : Dialect) (output : Option String)
      (quotes : Bool)
  | types (schemaFile output : Option String)
  | introspect
  | migrate (schemaFile : Option String) (isDryRun skipsTypes : Bool)
  deriving DecidableEq, Repr

def Task.name : Task → String
  | .check .. => "check"
  | .generate .. => "generate"
  | .types .. => "types"
  | .introspect => "introspect"
  | .migrate .. => "migrate"

/-- What the program is asked to do, and the settings that are given with it. -/
structure Invocation where
  settingsFile : Option String
  variableFront : Option String
  isVerbose : Bool
  task : Task
  deriving DecidableEq, Repr

namespace Invocation

def schemaOption : OptionSpec := { names := ["--schema"], takesValue := true }

def outputOption : OptionSpec := { names := ["--output", "-o"], takesValue := true }

/-- The options that hold for every task. -/
def commonOptions : List OptionSpec :=
  [{ names := ["--env-prefix"], takesValue := true },
   { names := ["--config"], takesValue := true },
   { names := ["--verbose", "-v"] }]

def checkOptions : List OptionSpec :=
  [schemaOption, { names := ["--strict"] }, { names := ["--show"] }]

def generateOptions : List OptionSpec :=
  [schemaOption,
   { names := ["--dialect"], takesValue := true, choices := some (Dialect.all.map Dialect.name) },
   outputOption, { names := ["--quote"] }]

def typesOptions : List OptionSpec := [schemaOption, outputOption]

def migrateOptions : List OptionSpec :=
  [schemaOption, { names := ["--dry-run"] }, { names := ["--no-types"] }]

/-- The options of a task; there is nothing else among its arguments. -/
def taskOptions (specs : List OptionSpec) (arguments : List String) :
    Except ArgumentStop Taken := do
  let taken ← readOptions specs true arguments
  if taken.hasExtra then throw .misuse else pure taken

/-- The task of a name with arguments. -/
def readTask (name : String) (arguments : List String) : Except ArgumentStop Task :=
  match name with
  | "check" => do
    let t ← taskOptions checkOptions arguments
    pure (.check (t.value? "--schema") (t.has "--strict") (t.has "--show"))
  | "generate" => do
    let t ← taskOptions generateOptions arguments
    let dialect := (t.value? "--dialect").bind fun name => (Dialect.ofName name).toOption
    pure (.generate (t.value? "--schema") (dialect.getD .postgres) (t.value? "--output")
      (t.has "--quote"))
  | "types" => do
    let t ← taskOptions typesOptions arguments
    pure (.types (t.value? "--schema") (t.value? "--output"))
  | "introspect" => do
    let _ ← taskOptions [] arguments
    pure .introspect
  | "migrate" => do
    let t ← taskOptions migrateOptions arguments
    pure (.migrate (t.value? "--schema") (t.has "--dry-run") (t.has "--no-types"))
  | _ => .error .misuse

/-- What the arguments ask for. -/
def ofArguments (arguments : List String) : Except ArgumentStop Invocation := do
  let taken ← readOptions commonOptions false arguments
  match taken.rest with
  | [] => throw .misuse
  | name :: rest =>
    let task ← readTask name rest
    if taken.hasExtra then throw .misuse
    pure
      { settingsFile := taken.value? "--config"
        variableFront := taken.value? "--env-prefix"
        isVerbose := taken.has "--verbose"
        task }

end Invocation

end Schemata
