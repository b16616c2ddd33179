import Schemata.Schema
import Schemata.Text.Split

/-!
# Schemas — naming

The rules on names that a readable schema has to keep.  Names of models and fields are words of
small letters and digits joined by single underscores (`isSnakeCase`); a name is declared once,
a model's in the schema and a field's in its model.  Under the strict rules every name that is
referred to is declared as well: the model a relation leads to, the foreign key of a relation
whose key is in the model, and each member of a `@@unique` block.

`Schema.violations` lists every breach, the ones of the strict rules after all others.
-/

namespace Schemata

/-- A breach of a rule on names. -/
inductive SemanticProblem where
  | duplicateModel (model : String)
  | modelCase (model : String)
  | duplicateField (field model : String)
  | fieldCase (field : String)
  | unknownTarget (model field target : String)
  | unknownKey (key model field : String)
  | unknownMember (member model : String)
  deriving DecidableEq, Repr

def SemanticProblem.message : SemanticProblem → String
  | .duplicateModel model => s!"Duplicate model name '{model}'. Model names must be unique."
  | .modelCase model =>
    s!"Model name '{model}' must be in snake_case (e.g., 'user_profile'). " ++
      "Do not use capital letters or hyphens."
  | .duplicateField field model =>
    s!"Duplicate field name '{field}' in model '{model}'. " ++
      "Field names within a model must be unique."
  | .fieldCase field =>
    s!"Field name '{field}' must be in snake_case (e.g., 'first_name'). " ++
      "Do not use capital letters or hyphens."
  | .unknownTarget model field target =>
    s!"Relation '{model}.{field}' targets unknown model '{target}'"
  | .unknownKey key model field =>
    s!"Foreign key '{key}' of '{model}.{field}' is not a field of '{model}'"
  | .unknownMember member model => s!"@@unique column '{member}' is not a field of '{model}'"

/-- A breach, and the place of the declaration it is found at. -/
structure SemanticFault where
  problem : SemanticProblem
  position : Position
  deriving DecidableEq, Repr

def SemanticFault.diagnostic (f : SemanticFault) : Diagnostic :=
  ⟨.semantic, f.problem.message, f.position⟩

/-- A small letter or a digit. -/
def isSnakeChar (c : Char) : Bool := c.isLower || c.isDigit

/-- A text without the newline it may end in. -/
def chomp (cs : List Char) : List Char := if cs.getLast? = some '\n' then cs.dropLast else cs

/-- Words of small letters and digits, joined by single underscores.  One newline at the end
does not count. -/
def isSnakeCase (name : String) : Bool :=
  (Text.splitOn '_' (chomp name.toList)).all fun part => !part.isEmpty && part.all isSnakeChar

namespace Field

def namingFaults (f : Field) : List SemanticFault :=
  if isSnakeCase f.name then [] else [⟨.fieldCase f.name, f.position⟩]

end Field

namespace Model

/-- The breaches at the fields of a model, given the names of the fields before them. -/
def fieldFaults (model : String) (seen : List String) : List Field → List SemanticFault
  | [] => []
  | f :: fs =>
    (if seen.contains f.name then [⟨.duplicateField f.name model, f.position⟩] else []) ++
      f.namingFaults ++ fieldFaults model (f.name :: seen) fs

/-- The breaches in a model alone. -/
def namingFaults (m : Model) : List SemanticFault :=
  (if isSnakeCase m.name then [] else [⟨.modelCase m.name, m.position⟩]) ++
    fieldFaults m.name [] m.fields

/-- The breaches of the strict rules at one relation of a model. -/
def relationFaults (m : Model) (declared : List String) (f : Field) : List SemanticFault :=
  match f.relation with
  | none => []
  | some r =>
    (if declared.contains f.typeName then []
      else [⟨.unknownTarget m.name f.name f.typeName, f.position⟩]) ++
    match r.key? with
    | none => []
    | some key =>
      if r.kind.holdsKey && !(m.fields.map Field.name).contains key then
        [⟨.unknownKey key m.name f.name, f.position⟩]
      else []

/-- The breaches of the strict rules in a model. -/
def referenceFaults (m : Model) (declared : List String) : List SemanticFault :=
  m.fields.flatMap (m.relationFaults declared) ++
    m.uniques.flatten.filterMap fun name =>
      if (m.fields.map Field.name).contains name then none
      else some ⟨.unknownMember name m.name, m.position⟩

end Model

namespace Schema

/-- The breaches at the models of a schema, given the names of the models before them. -/
def modelFaults (seen : List String) : List Model → List SemanticFault
  | [] => []
  | m :: ms =>
    (if seen.contains m.name then [⟨.duplicateModel m.name, m.position⟩] else []) ++
      m.namingFaults ++ modelFaults (m.name :: seen) ms

/-- Every breach of the rules on names. -/
def violations (s : Schema) (strict : Bool) : List SemanticFault :=
  modelFaults [] s.models ++
    if strict then s.models.flatMap (·.referenceFaults s.modelNames) else []

end Schema

end Schemata
