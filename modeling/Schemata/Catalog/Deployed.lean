import Schemata.Catalog
import Schemata.Catalog.NativeDefault
import Schemata.Catalog.NativeType

/-!
# Catalogs — the deployed schema

The schema that a snapshot shows.  Every table is a model whose columns are its fields.  A
column with a foreign key is marked as a relation, and a further field, named for the table it
refers to, stands for the relation itself unless the name is taken.

A table that does nothing but link two others is no model (`Table.linkedTables?`): it has foreign
keys on exactly two columns, and every other column belongs to its primary key or only tells of
times.  Instead each of the two models has a many-to-many field for it.  A link to a table that
is itself a link is left as it is.
-/

namespace Schemata

/-- The plural of a word, by its last letter. -/
def pluralize (word : String) : String :=
  match word.toList.getLast? with
  | some 'y' => String.ofList (word.toList.dropLast ++ ['i', 'e', 's'])
  | some 's' => word
  | _ => word ++ "s"

namespace Table

/-- The field of a column. -/
def columnField (t : Table) (d : Dialect) (c : Column) : Except NumeralFault Field := do
  let (scalar, isArray) :=
    if d = .mysql then mysqlScalar c.dataType c.fullType
    else postgresScalar c.dataType c.elementType
  let default ←
    if d = .mysql then mysqlDefault c.default c.extra scalar.name
    else postgresDefault c.default scalar.name
  let isKey := t.primaryKey.contains c.name
  pure
    { name := c.name
      typeName := scalar.name
      isArray
      isPrimaryKey := isKey
      isRequired := !c.isNullable && !isKey
      isUnique := t.uniques.contains [c.name] && !isKey
      default
      relation :=
        if (t.foreignKeys.map Prod.fst).contains c.name then some ⟨.manyToOne, some c.name⟩
        else none }

/-- The fields that stand for foreign keys, given the names that are taken. -/
def relationFields (taken : List String) : List (String × String) → List Field
  | [] => []
  | (column, target) :: rest =>
    if taken.contains target then relationFields taken rest
    else
      { name := target, typeName := target, relation := some ⟨.manyToOne, some column⟩ } ::
        relationFields (target :: taken) rest

/-- The model of a table. -/
def model (t : Table) (d : Dialect) : Except NumeralFault Model := do
  let fields ← t.columns.mapM (t.columnField d)
  pure
    { name := t.name
      fields := fields ++ relationFields (fields.map Field.name) t.foreignKeys
      uniques := t.uniques.filter fun columns => columns.length != 1 }

/-- The columns that a link between tables may have besides its foreign keys and its key. -/
def bookkeeping : List String := ["created_at", "updated_at"]

/-- The two tables that a table links, if linking them is all it does. -/
def linkedTables? (t : Table) (known : List String) : Option (String × String) :=
  let keys := t.foreignKeys
  let linking := t.columns.all fun c =>
    (keys.map Prod.fst).contains c.name || t.primaryKey.contains c.name ||
      bookkeeping.contains c.name
  match keys with
  | [(_, left), (_, right)] =>
    if linking && known.contains left && known.contains right && t.name != left &&
        t.name != right then
      some (left, right)
    else none
  | _ => none

end Table

/-- A link between two tables, and the table that makes it. -/
structure Link where
  table : String
  left : String
  right : String
  deriving DecidableEq, Repr

namespace Snapshot

/-- The links of a snapshot. -/
def links (s : Snapshot) : List Link :=
  s.filterMap fun t =>
    (t.linkedTables? (s.map Table.name)).map fun (left, right) => ⟨t.name, left, right⟩

/-- The links between tables that are no links. -/
def foldedLinks (s : Snapshot) : List Link :=
  let tables := s.links.map Link.table
  s.links.filter fun l => !tables.contains l.left && !tables.contains l.right

end Snapshot

/-- The text without the underscores at its ends. -/
def trimUnderscores (name : String) : String :=
  String.ofList
    ((name.toList.dropWhile (· == '_')).reverse.dropWhile (· == '_')).reverse

namespace Model

/-- The many-to-many field of a model for a link to `target`. -/
def linkField (m : Model) (target table : String) : Field :=
  let name := Text.lower (pluralize target)
  { name :=
      if (m.fields.map Field.name).contains name then name ++ "_" ++ trimUnderscores table
      else name
    typeName := target
    isArray := true
    relation := some ⟨.manyToMany, some table⟩ }

/-- The model with the fields for a link: one if the model is linked to itself. -/
def withLink (m : Model) (l : Link) : Model :=
  if m.name = l.left then { m with fields := m.fields ++ [m.linkField l.right l.table] }
  else if m.name = l.right then { m with fields := m.fields ++ [m.linkField l.left l.table] }
  else m

end Model

namespace Snapshot

/-- The schema that a snapshot shows, with an entry for each link that became fields. -/
def schema (s : Snapshot) (d : Dialect) : Journal NumeralFault Schema := do
  let models ← Journal.ofExcept (s.mapM (·.model d))
  let folded := s.foldedLinks
  Journal.notes (folded.map fun l =>
    ⟨.debug, s!"Folding join table {l.table} into {l.left} <-> {l.right}"⟩)
  let kept := models.filter fun m => !(folded.map Link.table).contains m.name
  pure ⟨kept.map fun m => folded.foldl Model.withLink m⟩

end Snapshot

end Schemata
