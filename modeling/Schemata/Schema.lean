import Schemata.Number.Numeral
import Schemata.Shape

/-!
# Schemas

A schema is a list of models, a model a list of fields.  A field is a column when the name of
its type is the name of a scalar, and otherwise stands for a relation to the model of that
name.  Schemas come from source text, from a database, or are put together by a program, so
nothing here asks for names to be different or for types to exist; `Schemata.Schema.Naming`
says which schemas follow the rules.

Defaults are compared by value (`Default.same`): a number or a truth value is the same as
another one when both have the same mathematical value, whichever way it is held.
-/

namespace Schemata

/-- The types of columns. -/
inductive Scalar where
  | int
  | string
  | float
  | boolean
  | json
  | datetime
  | date
  deriving DecidableEq, Repr

namespace Scalar

def all : List Scalar := [.int, .string, .float, .boolean, .json, .datetime, .date]

def name : Scalar → String
  | .int => "int"
  | .string => "string"
  | .float => "float"
  | .boolean => "boolean"
  | .json => "json"
  | .datetime => "datetime"
  | .date => "date"

def ofName? (name : String) : Option Scalar := all.find? fun s => s.name == name

theorem ofName?_name (s : Scalar) : ofName? s.name = some s := by cases s <;> rfl

end Scalar

/-- The kinds of relations. -/
inductive RelationKind where
  | oneToMany
  | manyToOne
  | oneToOne
  | manyToMany
  deriving DecidableEq, Repr

namespace RelationKind

def all : List RelationKind := [.oneToMany, .manyToOne, .oneToOne, .manyToMany]

def name : RelationKind → String
  | .oneToMany => "one_to_many"
  | .manyToOne => "many_to_one"
  | .oneToOne => "one_to_one"
  | .manyToMany => "many_to_many"

def ofName? (name : String) : Option RelationKind := all.find? fun k => k.name == name

/-- The kinds whose foreign key is a column of the model that declares them. -/
def holdsKey (k : RelationKind) : Bool := k = .manyToOne || k = .oneToOne

end RelationKind

/-- A relation, with the name of its foreign key or join table if one is given. -/
structure Relation where
  kind : RelationKind
  foreignKey : Option String
  deriving DecidableEq, Repr

/-- The foreign key, unless its name is empty. -/
def Relation.key? (r : Relation) : Option String := r.foreignKey.filter (· != "")

/-- What the database fills in for a column. -/
inductive Generator where
  | autoincrement
  | uuid
  | now
  deriving DecidableEq, Repr

namespace Generator

def all : List Generator := [.autoincrement, .uuid, .now]

def name : Generator → String
  | .autoincrement => "autoincrement"
  | .uuid => "uuid"
  | .now => "now"

def ofName? (name : String) : Option Generator := all.find? fun g => g.name == name

end Generator

/-- A value written as a default. -/
inductive Literal where
  | bool (value : Bool)
  | int (value : Int)
  | float (value : Binary64)
  | text (value : String)
  deriving DecidableEq, Repr

namespace Literal

/-- The number that a numeral stands for; one with a point is fractional. -/
def ofNumeral (text : String) : Except NumeralFault Literal :=
  if text.toList.contains '.' then (Numeral.fraction text).map .float
  else (Numeral.integer text).map .int

/-- A literal as messages show it. -/
def shown : Literal → String
  | .bool b => if b then "True" else "False"
  | .int n => toString n
  | .float x => x.text
  | .text s => Text.quoted s

/-- The integer that a whole number or a truth value is. -/
def int? : Literal → Option Int
  | .bool b => some (if b then 1 else 0)
  | .int n => some n
  | .float _ => none
  | .text _ => none

/-- The same value, whichever way it is held. -/
def same (a b : Literal) : Bool :=
  match a, b with
  | .text s, .text t => s == t
  | .text _, _ => false
  | _, .text _ => false
  | .float x, .float y => x.sameValue y
  | .float x, b => (b.int?.map x.isInt).getD false
  | a, .float y => (a.int?.map y.isInt).getD false
  | a, b => a.int? == b.int?

theorem same_self (a : Literal) : a.same a = true := by
  cases a <;> simp [same, int?, Binary64.sameValue_self]

end Literal

/-- The default of a column. -/
inductive Default where
  | literal (value : Literal)
  | call (generator : Generator)
  deriving DecidableEq, Repr

namespace Default

/-- The same default, by value. -/
def same : Default → Default → Bool
  | .literal a, .literal b => a.same b
  | .call g, .call h => g == h
  | .literal _, .call _ => false
  | .call _, .literal _ => false

/-- The same default or none on both sides. -/
def sameOption : Option Default → Option Default → Bool
  | none, none => true
  | some a, some b => a.same b
  | some _, none => false
  | none, some _ => false

theorem same_self (d : Default) : d.same d = true := by
  cases d <;> simp [same, Literal.same_self]

theorem sameOption_self (d : Option Default) : sameOption d d = true := by
  cases d <;> simp [sameOption, same_self]

end Default

/-- A column, or a place for a relation to another model. -/
structure Field where
  name : String
  typeName : String
  isArray : Bool := false
  isPrimaryKey : Bool := false
  isRequired : Bool := false
  isUnique : Bool := false
  default : Option Default := none
  relation : Option Relation := none
  shape : Option Shape := none
  position : Position := .nowhere
  deriving DecidableEq

namespace Field

/-- The scalar that the type of the field names. -/
def scalar? (f : Field) : Option Scalar := Scalar.ofName? f.typeName

/-- A field with a scalar type is a column. -/
def isColumn (f : Field) : Bool := f.scalar?.isSome

/-- A column that holds no null: a required one, or a primary key. -/
def isNotNull (f : Field) : Bool := f.isRequired || f.isPrimaryKey

/-- A column that is unique for another reason than being the primary key. -/
def hasUniqueConstraint (f : Field) : Bool := f.isUnique && !f.isPrimaryKey

/-- A column that counts up by itself. -/
def isAutoincrement (f : Field) : Bool := f.default = some (.call .autoincrement)

end Field

/-- A model: what becomes a table. -/
structure Model where
  name : String
  fields : List Field := []
  uniques : List (List String) := []
  position : Position := .nowhere
  deriving DecidableEq

namespace Model

/-- The first field of a name. -/
def field? (m : Model) (name : String) : Option Field := m.fields.find? fun f => f.name == name

/-- The fields that are columns. -/
def columns (m : Model) : List Field := m.fields.filter Field.isColumn

/-- The first field that is marked as primary key. -/
def primaryKey? (m : Model) : Option Field := m.fields.find? Field.isPrimaryKey

end Model

/-- A list of models. -/
structure Schema where
  models : List Model := []
  deriving DecidableEq

namespace Schema

/-- The first model of a name. -/
def model? (s : Schema) (name : String) : Option Model := s.models.find? fun m => m.name == name

def modelNames (s : Schema) : List String := s.models.map Model.name

end Schema

end Schemata
