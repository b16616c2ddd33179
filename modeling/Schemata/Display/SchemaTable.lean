import Schemata.Display.Table
import Schemata.Schema

/-!
# Display — schemas

A schema as a table: a row for each field, with its type and with what is said about it, in the
words of the schema language.  The name of a model stands in the row of its first field.
-/

namespace Schemata

/-- A default in the words of the schema language. -/
def Default.attribute : Default → String
  | .literal v => s!"default({v.shown})"
  | .call g => s!"default({g.name}())"

/-- A relation in the words of the schema language. -/
def Relation.attribute (r : Relation) : String :=
  match r.key? with
  | some key => s!"{r.kind.name}({key})"
  | none => r.kind.name

namespace Field

/-- What is said about a field. -/
def attributes (f : Field) : List String :=
  (if f.isPrimaryKey then ["primary_key"] else []) ++
    (if f.isRequired then ["required"] else []) ++
    (if f.isUnique then ["unique"] else []) ++
    (f.default.map Default.attribute).toList ++
    (f.relation.map Relation.attribute).toList

/-- The row of a field, after the name of the model or nothing. -/
def row (model : String) (f : Field) : List String :=
  [model, f.name, if f.isArray then f.typeName ++ "[]" else f.typeName,
   " ".intercalate f.attributes]

end Field

/-- The rows of a model. -/
def Model.rows (m : Model) : List (List String) :=
  match m.fields with
  | [] => []
  | f :: fs => f.row m.name :: fs.map (Field.row "")

/-- A schema as a table. -/
def Schema.table (s : Schema) (title : String) : Display.Grid :=
  ⟨title, ["Model", "Field", "Type", "Attributes"], s.models.flatMap Model.rows⟩

end Schemata
