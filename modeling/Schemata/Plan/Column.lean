import Schemata.Journal
import Schemata.Statement

/-!
# Plans — columns

From a field to the declaration of its column.  A literal is written only for a column of its
own type: truth values for `boolean`, integers for `int`, numbers for `float`, and text for
`string`, `date`, `datetime` and `json` (`Literal.expression?`).  A literal that does not fit is
an error wherever it would be written.

Counting up is for primary keys.  On another column it is left out, with a warning.
-/

namespace Schemata

/-- Why a field has no column. -/
inductive PlanError where
  | noType (typeName field : String)
  | illTyped (value : Literal) (typeName model field : String)
  deriving DecidableEq, Repr

def PlanError.message : PlanError → String
  | .noType typeName field => s!"No SQL type for '{typeName}' (field '{field}')"
  | .illTyped value typeName model field =>
    s!"Default {value.shown} does not match type '{typeName}' of field '{model}.{field}'"

/-- The expression of a literal in a column of the type, if it fits.  An integer is written with all
its digits: none that was read has more of them than are read (`integerDigitLimit`). -/
def Literal.expression? (s : Scalar) (v : Literal) : Option Expression :=
  match s, v with
  | .boolean, .bool b => some (.verbatim (if b then "true" else "false"))
  | .int, .int n => some (.verbatim (toString n))
  | .float, .int n => some (.verbatim (toString n))
  | .float, .float x => some (.verbatim x.text)
  | .string, .text t | .date, .text t | .datetime, .text t | .json, .text t => some (.quoted t)
  | _, _ => none

/-- The type of a column that holds scalars or arrays of them.  An array of `json` values is one
such value. -/
def Scalar.columnType (s : Scalar) (isArray : Bool) (d : Dialect) : String :=
  if isArray && s != .json then d.arrayType (s.nativeType d) else s.nativeType d

namespace Field

/-- The type of the field's column. -/
def columnType (f : Field) (d : Dialect) : Except PlanError String :=
  match f.scalar? with
  | some s => .ok (s.columnType f.isArray d)
  | none => .error (.noType f.typeName f.name)

/-- The expression of the field's default, if it has one. -/
def defaultExpression (f : Field) (d : Dialect) (model : String) :
    Journal PlanError (Option Expression) :=
  match f.default with
  | none => pure none
  | some (.call g) =>
    match g.expression? d with
    | some text => pure (some (.verbatim text))
    | none => do
      if !f.isPrimaryKey then
        Journal.note .warning
          s!"autoincrement() on non-primary-key column {model}.{f.name} ignored"
      pure none
  | some (.literal v) =>
    match f.scalar?.bind v.expression? with
    | some e => pure (some e)
    | none => Journal.fail (.illTyped v f.typeName model f.name)

/-- A column that counts up and is a key. -/
def isIdentity (f : Field) : Bool := f.isPrimaryKey && f.isAutoincrement

/-- The declaration of the field's column in a new table or as a new column. -/
def definition (f : Field) (d : Dialect) (model : String) :
    Journal PlanError ColumnDefinition := do
  let type ← Journal.ofExcept (f.columnType d)
  if f.isIdentity && d = .postgres then
    pure { name := f.name, type := "SERIAL", isKey := true }
  else
    let default ← f.defaultExpression d model
    pure
      { name := f.name
        type
        isKey := f.isPrimaryKey
        identity := if f.isIdentity then d.identitySuffix else ""
        isUnique := f.isUnique
        default
        isNotNull := f.isNotNull }

/-- The declaration of the field's column when the column is there already: as `definition`, but
without the clauses of keys. -/
def restatement (f : Field) (d : Dialect) (model : String) :
    Journal PlanError ColumnDefinition := do
  let type ← Journal.ofExcept (f.columnType d)
  let default ← f.defaultExpression d model
  pure
    { name := f.name
      type
      identity := if f.isIdentity then d.identitySuffix else ""
      default
      isNotNull := f.isNotNull }

end Field

end Schemata
