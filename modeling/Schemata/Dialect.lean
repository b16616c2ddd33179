import Schemata.Schema
import Schemata.Text.Blank
import Schemata.Text.Case
import Schemata.Text.Quoted

/-!
# Dialects

What the databases do not agree on: the types of columns, the expressions of generated
defaults, how a column that counts up is declared, and how a name is quoted.

`plainType` takes the marks of a counting key off a type, so that a column that refers to such a
key can be declared.  A quoted name is the name between two quotes, with every quote in it
written twice (`quote`).
-/

namespace Schemata

/-- The families of databases. -/
inductive Dialect where
  | postgres
  | mysql
  | sqlite
  | generic
  deriving DecidableEq, Repr, Inhabited

/-- A name that names no scalar or no dialect. -/
inductive NameFault where
  | scalar (name : String)
  | dialect (name : String)
  deriving DecidableEq, Repr

def NameFault.message : NameFault → String
  | .scalar name => s!"{Text.quoted name} is not a valid ScalarType"
  | .dialect name => s!"{Text.quoted name} is not a valid Dialect"

namespace Dialect

def all : List Dialect := [.postgres, .mysql, .sqlite, .generic]

def name : Dialect → String
  | .postgres => "postgres"
  | .mysql => "mysql"
  | .sqlite => "sqlite"
  | .generic => "generic"

def ofName (name : String) : Except NameFault Dialect :=
  match all.find? fun d => d.name == name with
  | some d => .ok d
  | none => .error (.dialect name)

/-- The type of an array of another type. -/
def arrayType (d : Dialect) (element : String) : String :=
  match d with
  | .postgres => element ++ "[]"
  | .mysql => "JSON"
  | .sqlite => "TEXT"
  | .generic => "TEXT"

/-- What follows the key clause of a column that counts up.  Postgres has a type of its own for
such a column. -/
def identitySuffix : Dialect → String
  | .postgres => ""
  | .mysql => " AUTO_INCREMENT"
  | .sqlite => " AUTOINCREMENT"
  | .generic => ""

/-- The quote around a name. -/
def quoteChar : Dialect → Char
  | .mysql => '\x60'
  | .postgres | .sqlite | .generic => '"'

end Dialect

/-- The text with every `quote` in it written twice. -/
def doubled (quote : Char) (cs : List Char) : List Char :=
  cs.flatMap fun c => if c = quote then [quote, quote] else [c]

theorem doubled_cons (quote c : Char) (cs : List Char) :
    doubled quote (c :: cs) = (if c = quote then [quote, quote] else [c]) ++ doubled quote cs := rfl

/-- A text between two quotes, with every quote in it written twice. -/
def enclosed (quote : Char) (s : String) : String :=
  String.ofList (quote :: doubled quote s.toList ++ [quote])

namespace Dialect

/-- A name in the quotes of the dialect. -/
def quote (d : Dialect) (name : String) : String := enclosed d.quoteChar name

end Dialect

namespace Scalar

/-- The type of a column. -/
def nativeType : Scalar → Dialect → String
  | .int, .mysql => "INT"
  | .int, _ => "INTEGER"
  | .string, .sqlite => "TEXT"
  | .string, _ => "VARCHAR(255)"
  | .float, .postgres | .float, .sqlite => "REAL"
  | .float, _ => "FLOAT"
  | .boolean, .mysql => "TINYINT(1)"
  | .boolean, _ => "BOOLEAN"
  | .json, .postgres => "JSONB"
  | .json, .mysql => "JSON"
  | .json, _ => "TEXT"
  | .date, _ => "DATE"
  | .datetime, .postgres => "TIMESTAMP"
  | .datetime, _ => "DATETIME"

/-- The native type for the names of a scalar and of a dialect. -/
def nativeTypeNamed (scalar dialect : String) : Except NameFault String :=
  match Scalar.ofName? scalar with
  | none => .error (.scalar scalar)
  | some s => (Dialect.ofName dialect).map s.nativeType

end Scalar

/-- The expression of a generated default; a column that counts up has none. -/
def Generator.expression? : Generator → Dialect → Option String
  | .autoincrement, _ => none
  | .now, .postgres => some "CURRENT_TIMESTAMP"
  | .now, .mysql => some "NOW()"
  | .now, .sqlite => some "(DATETIME('now'))"
  | .now, .generic => some "CURRENT_TIMESTAMP"
  | .uuid, .postgres => some "gen_random_uuid()"
  | .uuid, .mysql => some "(UUID())"
  | .uuid, .sqlite => some "(HEX(RANDOMBLOB(16)))"
  | .uuid, .generic => some "'uuid_placeholder'"

/-! ### Types without the marks of a key -/

/-- The letter that a letter stands for when case does not matter. -/
def foldLetter (c : Char) : Char :=
  if c.toNat = 304 || c.toNat = 305 then 'i' else if c.toNat = 8490 then 'k' else c.toLower

/-- Whether the text begins with `mark`, whatever the case. -/
def beginsWith (mark cs : List Char) : Bool :=
  (cs.take mark.length).map foldLetter == mark.map foldLetter

/-- The text without `mark` anywhere in it. -/
def without (mark : List Char) : List Char → List Char
  | [] => []
  | c :: cs =>
    if beginsWith mark (c :: cs) then without mark (cs.drop (mark.length - 1))
    else c :: without mark cs
termination_by cs => cs.length
decreasing_by all_goals simp only [List.length_drop, List.length_cons]; omega

/-- The marks of a key, in the order in which they are taken off. -/
def identityMarks : List String := ["PRIMARY KEY", "AUTO_INCREMENT", "AUTOINCREMENT"]

/-- The types that count up, and what they hold. -/
def serialTypes : List (String × String) :=
  [("SMALLSERIAL", "SMALLINT"), ("SERIAL", "INTEGER"), ("BIGSERIAL", "BIGINT")]

/-- A type without the marks of a key: what a column that refers to the key holds. -/
def plainType (type : String) : String :=
  let cleaned := identityMarks.foldl (fun cs mark => without mark.toList cs) type.toList
  let type := " ".intercalate (Text.words (String.ofList cleaned))
  (serialTypes.lookup (Text.upper type)).getD type

end Schemata
