import Schemata.Journal
import Schemata.Schema

/-!
# Plans — order

The order in which tables are created.  A table comes after every table it depends on; among
those that may come next, the one that was declared first does (`place`).  Dependencies of a
table on itself or on a table outside the list do not count.  Where only tables are left that
wait for each other, they follow in the order of their declaration, with a warning.

A schema's dependencies are its foreign keys: the relations that hold a key and lead to another
model of the schema (`Schema.dependencies`).
-/

namespace Schemata

/-- For each table, the tables it depends on. -/
abbrev Dependencies : Type := List (String × List String)

namespace Dependencies

/-- The tables that a table depends on. -/
def of (deps : Dependencies) (table : String) : List String := (deps.lookup table).getD []

/-- The dependencies of a table that count in a list of tables. -/
def within (deps : Dependencies) (tables : List String) (table : String) : List String :=
  (deps.of table).filter fun t => tables.contains t && t != table

/-- Places tables as long as one of those that remain depends on placed ones only; answers the
placed tables in their order, and the tables that are stuck. -/
def place (needs : String → List String) (placed remaining : List String) :
    List String × List String :=
  match h : remaining.find? fun t => (needs t).all placed.contains with
  | none => ([], remaining)
  | some t =>
    have : (remaining.erase t).length < remaining.length := by
      have := List.length_erase_of_mem (List.mem_of_find?_eq_some h)
      have := List.length_pos_of_mem (List.mem_of_find?_eq_some h)
      omega
    let (order, stuck) := place needs (t :: placed) (remaining.erase t)
    (t :: order, stuck)
termination_by remaining.length

/-- The tables in an order that respects the dependencies, and the tables that wait for each
other. -/
def sort (deps : Dependencies) (tables : List String) : List String × List String :=
  place (deps.within tables) [] tables

/-- The tables in order, with a warning if some wait for each other. -/
def sorted {ε : Type} (deps : Dependencies) (tables : List String) : Journal ε (List String) :=
  let (order, stuck) := deps.sort tables
  let warnings : List Entry :=
    if stuck.isEmpty then []
    else
      [⟨.warning, "Foreign-key cycle between tables " ++ ", ".intercalate stuck ++
        "; creating them in declaration order"⟩]
  ⟨warnings, .ok (order ++ stuck)⟩

end Dependencies

/-- The model that the field's foreign key leads to.  A column has none, whatever is written on
it. -/
def Field.foreignKeyTarget? (f : Field) : Option String :=
  match f.relation with
  | none => none
  | some r =>
    if r.kind.holdsKey && r.key?.isSome && !f.isColumn then some f.typeName else none

namespace Schema

/-- The models that a model's foreign keys lead to. -/
def targets (s : Schema) (m : Model) : List String :=
  (m.fields.filterMap Field.foreignKeyTarget?).filter s.modelNames.contains

/-- For each model, the models its foreign keys lead to. -/
def dependencies (s : Schema) : Dependencies :=
  s.modelNames.eraseDups.map fun name =>
    (name, ((s.models.filter fun m => m.name == name).flatMap s.targets).eraseDups)

end Schema

end Schemata
