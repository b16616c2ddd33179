import Schemata.Connection.Url
import Schemata.Dialect
import Schemata.Text.Blank

/-!
# Connections — targets

The database that a command works on.  One environment variable holds its address, and the scheme
of the address says which kind of database it is; the scheme may name a driver after a plus sign.

The address is used twice, once for reading the catalog and once for applying a migration.  The
first use drops the driver (`withoutDriver`), the second puts its own in (`Backend.driverUrl`), and
neither touches anything else.
-/

namespace Schemata

/-- The kinds of databases that can be connected to. -/
inductive Backend where
  | postgres
  | mysql
  deriving DecidableEq, Repr

namespace Backend

def dialect : Backend → Dialect
  | .postgres => .postgres
  | .mysql => .mysql

/-- The schemes that name a kind of database, with the driver left out. -/
def schemes : List (String × Backend) :=
  [("mysql", .mysql), ("postgres", .postgres), ("postgresql", .postgres)]

/-- What the addresses for applying migrations begin with. -/
def driverFront : Backend → String
  | .postgres => "postgresql+asyncpg://"
  | .mysql => "mysql+aiomysql://"

/-- What an address without a driver begins with. -/
def plainFronts : Backend → List String
  | .postgres => ["postgres://", "postgresql://"]
  | .mysql => ["mysql://"]

/-- The address with the driver put in, if it has none. -/
def driverUrl (b : Backend) (url : String) : String :=
  match b.plainFronts.find? fun front => front.toList.isPrefixOf url.toList with
  | some front => b.driverFront ++ String.ofList (url.toList.drop front.length)
  | none => url

end Backend

/-- A dialect that no database of those that can be connected to speaks. -/
structure DriverFault where
  dialect : Dialect
  deriving DecidableEq, Repr

def DriverFault.message (f : DriverFault) : String :=
  s!"No async driver for dialect '{f.dialect.name}'"

/-- The kind of database that speaks a dialect. -/
def Dialect.backend : Dialect → Except DriverFault Backend
  | .postgres => .ok .postgres
  | .mysql => .ok .mysql
  | d => .error ⟨d⟩

/-- Why there is no target. -/
inductive TargetError where
  | unset (variableName : String)
  | unsupported (scheme : String)
  | malformed (fault : UrlFault)
  deriving DecidableEq, Repr

def TargetError.message : TargetError → String
  | .unset variableName => s!"{variableName} is not set in environment variables."
  | .unsupported scheme =>
    s!"Unsupported database URL scheme '{scheme}'. Expected one of: " ++
      ", ".intercalate (Backend.schemes.map Prod.fst)
  | .malformed fault => fault.message

/-- The part of a text before the first plus sign. -/
def beforePlus (s : String) : String := String.ofList (Text.cut '+' s.toList).1

/-- The kind of database at an address. -/
def Backend.ofUrl (url : String) : Except TargetError Backend := do
  let parts ← (Url.ofString url).mapError .malformed
  let scheme := Text.lower (beforePlus parts.scheme)
  match Backend.schemes.lookup scheme with
  | some b => pure b
  | none => throw (.unsupported (if scheme.isEmpty then url else scheme))

/-- What comes before the first `://`, and the rest with it. -/
def splitAtSlashes : List Char → List Char × List Char
  | [] => ([], [])
  | ':' :: '/' :: '/' :: cs => ([], ':' :: '/' :: '/' :: cs)
  | c :: cs => (c :: (splitAtSlashes cs).1, (splitAtSlashes cs).2)

/-- An address without the name of a driver. -/
def withoutDriver (url : String) : String :=
  let (scheme, rest) := splitAtSlashes url.toList
  beforePlus (String.ofList scheme) ++ String.ofList rest

/-- An address, and the kind of database at it. -/
structure Target where
  url : String
  backend : Backend
  deriving DecidableEq, Repr

namespace Target

/-- The target that a variable names; a variable that is not set is empty. -/
def resolve (variableName value : String) : Except TargetError Target :=
  let url := Text.strip value
  if url.isEmpty then .error (.unset variableName)
  else do
    let backend ← Backend.ofUrl url
    pure ⟨url, backend⟩

/-- The address for reading the catalog. -/
def catalogUrl (t : Target) : String := withoutDriver t.url

/-- The address for applying a migration. -/
def migrationUrl (t : Target) : String := t.backend.driverUrl t.catalogUrl

end Target

end Schemata
