import Schemata.Files
import Schemata.Setting
import Schemata.Toml.Reading

/-!
# Settings

What a project has settled: where the schema and the generated types are, and how migrations are
made.  The settings are read from the tables `schema` and `migrate` of a TOML document; what the
document does not settle is as usual, and other tables are of no interest.

Everything that is wrong in a table is told at once (`SettingsError.invalid`), but the second table
is looked at only if the first is right.
-/

namespace Schemata

/-- What a project has settled. -/
structure Settings where
  schemaFile : String := "schema.dbs"
  typesFile : String := "schema_types.py"
  variableName : String := "DATABASE_URL"
  variableFront : String := ""
  quotes : Bool := false
  strict : Bool := false
  timeout : Int := 10
  deriving DecidableEq, Repr

/-- Why there are no settings. -/
inductive SettingsError where
  | missing (path : String)
  | unreadable (fault : FileFault)
  | bytes (fault : Text.ByteFault)
  | malformed (path : String)
  | numeral (fault : NumeralFault)
  | noTable (path : String)
  | invalid (path : String) (problems : List (String × SettingProblem))
  deriving DecidableEq, Repr

def SettingsError.message : SettingsError → String
  | .missing path => s!"Config file not found: {path}"
  | .unreadable fault => fault.message
  | .bytes fault => fault.message
  | .malformed path => s!"Invalid TOML in {path}"
  | .numeral fault => fault.message
  | .noTable path => s!"Invalid configuration in {path}"
  | .invalid path _ => s!"Invalid configuration in {path}"

/-- How the value of a key changes the settings. -/
abbrev SettingKey : Type := Toml.Value → Settings → Except SettingProblem Settings

namespace Settings

/-- The keys of the table `schema`. -/
def schemaKeys : List (String × SettingKey) :=
  [("file", fun v s => do return { s with schemaFile := ← Setting.text v }),
   ("types_output", fun v s => do return { s with typesFile := ← Setting.text v })]

/-- The keys of the table `migrate`. -/
def migrateKeys : List (String × SettingKey) :=
  [("env_var", fun v s => do return { s with variableName := ← Setting.text v }),
   ("env_prefix", fun v s => do return { s with variableFront := ← Setting.text v }),
   ("quote_identifiers", fun v s => do return { s with quotes := ← Setting.truth v }),
   ("strict", fun v s => do return { s with strict := ← Setting.truth v }),
   ("connect_timeout", fun v s => do return { s with timeout := ← Setting.positive v })]

/-- The settings with the entries of a table, or everything that is wrong with them. -/
def withEntries (keys : List (String × SettingKey)) (s : Settings) (es : Toml.Entries) :
    Except (List (String × SettingProblem)) Settings :=
  let apply (state : Settings × List (String × SettingProblem)) (e : String × Toml.Value) :=
    let result : Except SettingProblem Settings :=
      match keys.lookup e.1 with
      | some change => change e.2 state.1
      | none => .error .unknown
    match result with
    | .ok s => (s, state.2)
    | .error p => (state.1, state.2 ++ [(e.1, p)])
  let (settings, problems) := es.foldl apply (s, [])
  if problems.isEmpty then .ok settings else .error problems

/-- The settings with those of a table of a document. -/
def withTable (path name : String) (keys : List (String × SettingKey)) (document : Toml.Entries)
    (s : Settings) : Except SettingsError Settings :=
  match document.lookup name with
  | none => .ok s
  | some (.table _ es) => (s.withEntries keys es).mapError (.invalid path)
  | some _ => .error (.noTable path)

/-- The settings of a document. -/
def ofText (path text : String) : Except SettingsError Settings := do
  let document ← (Toml.parse text).mapError fun
    | .malformed => .malformed path
    | .numeral fault => .numeral fault
  let s ← withTable path "schema" schemaKeys document {}
  withTable path "migrate" migrateKeys document s

/-- The settings in a file.  A file that was asked for has to be there. -/
def ofFile (path : String) (isAskedFor : Bool) (file : Except FileFault (List UInt8)) :
    Except SettingsError Settings :=
  match file with
  | .ok bytes => do
    let cs ← (Text.decode bytes).mapError .bytes
    ofText path (String.ofList cs)
  | .error fault =>
    if fault.problem = .isDirectory || fault.problem = .nameTooLong then .error (.unreadable fault)
    else if isAskedFor then .error (.missing path)
    else .ok {}

end Settings

end Schemata
