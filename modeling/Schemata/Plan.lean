import Schemata.Plan.Column
import Schemata.Plan.JoinTable
import Schemata.Plan.Order
import Schemata.Script

/-!
# Plans

From the schema that is wanted, and the one that is deployed if there is one, to the statements
that lead from the second to the first (`plan`).

* With nothing deployed, every model becomes a table, a table after those it refers to, and then
  every many-to-many relation becomes a join table.
* Otherwise the new models become tables in the same order; then each model in both is altered,
  its columns one after the other and then the dropped ones; and the tables of the models that
  are gone are dropped, a table before those it refers to.  Join tables are not altered; one that
  is missing is told of in the journal.

A column is altered by one statement for each property that differs: whether it may be null, its
default, its type, and whether it is unique.  MySQL restates nullability and type together.
SQLite alters nothing but uniqueness in place, so there the rest is a warning.
-/

namespace Schemata

/-- A journal of planning. -/
abbrev Planning (α : Type) : Type := Journal PlanError α

namespace Plan

/-! ### New tables -/

/-- The foreign key of a field. -/
def foreignKey? (f : Field) : Option TableElement :=
  match f.foreignKeyTarget?, f.relation.bind Relation.key? with
  | some target, some key => some (.foreignKey key target "id" false)
  | _, _ => none

/-- The table of a model. -/
def createTable (d : Dialect) (m : Model) : Planning Statement := do
  let columns ← m.columns.mapM fun f => f.definition d m.name
  pure (.createTable m.name
    (columns.map .column ++ m.uniques.map .unique ++ m.fields.filterMap foreignKey?))

/-- The key of a model that a join table refers to: its name and what it holds.  A model without
a column for its key is taken to have the key `id`. -/
def joinKey (d : Dialect) (s : Schema) (model : String) : Planning (String × String) :=
  match ((s.model? model).bind Model.primaryKey?).filter Field.isColumn with
  | some f => do
    let type ← Journal.ofExcept (f.columnType d)
    pure (f.name, plainType type)
  | none => do
    Journal.note .warning
      s!"Model '{model}' has no scalar primary key; join table assumes 'id int'"
    pure ("id", Scalar.int.nativeType d)

/-- A column of a join table. -/
def joinColumn (name type : String) : TableElement :=
  .column { name, type, isNotNull := true }

/-- The table of a many-to-many relation. -/
def createJoinTable (d : Dialect) (s : Schema) (j : JoinTable) : Planning Statement := do
  let (leftKey, leftType) ← joinKey d s j.left
  let (rightKey, rightType) ← joinKey d s j.right
  let a := "A_" ++ leftKey
  let b := "B_" ++ rightKey
  pure (.createTable j.name
    [joinColumn a leftType, joinColumn b rightType,
     .foreignKey a j.left leftKey true, .foreignKey b j.right rightKey true,
     .unique [a, b]])

/-- The tables of the named models, in an order in which they can be created. -/
def createTables (d : Dialect) (s : Schema) (names : List String) : Planning (List Statement) := do
  let order ← s.dependencies.sorted names
  (order.filterMap s.model?).mapM (createTable d)

/-- Everything that a schema needs. -/
def createAll (d : Dialect) (s : Schema) : Planning (List Statement) := do
  let tables ← createTables d s s.modelNames
  let joins ← s.joinTables.mapM (createJoinTable d s)
  pure (tables ++ joins)

/-! ### Altered columns -/

/-- Whether the column would stop being a key that holds no null. -/
def weakensKey (old new : Field) : Bool :=
  old.isNotNull != new.isNotNull && !new.isNotNull && old.isPrimaryKey

/-- The change between holding nulls and holding none. -/
def alterNullability (d : Dialect) (table : String) (old new : Field) : List Statement :=
  if weakensKey old new then [.warning (.keyMayNotBeNull new.name)]
  else if old.isNotNull != new.isNotNull && d != .mysql then
    [.setNotNull table new.name new.isNotNull]
  else []

/-- The change of a default. -/
def alterDefault (d : Dialect) (table : String) (old new : Field) : Planning (List Statement) :=
  if Default.sameOption old.default new.default then pure []
  else if old.isAutoincrement || new.isAutoincrement then
    pure [.warning (.autoincrementChange new.name)]
  else do
    let e ← new.defaultExpression d table
    pure [.setDefault table new.name e]

/-- The change of uniqueness, made by `add` where it is added. -/
def alterUniqueness (add : Statement) (old new : Field) : List Statement :=
  if old.hasUniqueConstraint == new.hasUniqueConstraint then []
  else if new.hasUniqueConstraint then [add]
  else [.warning (.uniqueRemoval new.name)]

/-- The restatement of a column. -/
def modifyColumn (d : Dialect) (table : String) (new : Field) : Planning Statement := do
  let definition ← new.restatement d table
  pure (.modifyColumn table definition)

/-- The changes of a column where columns can be altered. -/
def alterInPlace (d : Dialect) (table : String) (old new : Field) : Planning (List Statement) := do
  let oldType ← Journal.ofExcept (old.columnType d)
  let newType ← Journal.ofExcept (new.columnType d)
  let nullability := alterNullability d table old new
  let restated ←
    if d = .mysql && (oldType != newType ||
        (old.isNotNull != new.isNotNull && !weakensKey old new)) then do
      let statement ← modifyColumn d table new
      pure [statement]
    else pure []
  let default ← alterDefault d table old new
  let type :=
    if oldType != newType && d != .mysql then
      [.setType table new.name newType (d = .postgres && new.typeName == Scalar.json.name)]
    else []
  pure (nullability ++ restated ++ default ++ type ++
    alterUniqueness (.addUnique table new.name) old new)

/-- The changes of a column where nothing but uniqueness can be altered. -/
def alterRebuilding (d : Dialect) (table : String) (old new : Field) :
    Planning (List Statement) := do
  let nullability := old.isNotNull != new.isNotNull && !weakensKey old new
  let default := !Default.sameOption old.default new.default
  if default then
    let _ ← new.defaultExpression d table
  let oldType ← Journal.ofExcept (old.columnType d)
  let newType ← Journal.ofExcept (new.columnType d)
  let aspects :=
    (if nullability then [Aspect.nullability] else []) ++
      (if default then [Aspect.default] else []) ++
      (if oldType != newType then [Aspect.type] else [])
  pure ((if weakensKey old new then [.warning (.keyMayNotBeNull new.name)] else []) ++
    (if aspects.isEmpty then [] else [.warning (.unalterable aspects table new.name)]) ++
    alterUniqueness (.createUniqueIndex (table ++ "_" ++ new.name ++ "_key") table new.name)
      old new)

/-- The changes of a column. -/
def alterColumn (d : Dialect) (table : String) (old new : Field) : Planning (List Statement) :=
  if d = .sqlite then alterRebuilding d table old new else alterInPlace d table old new

/-! ### Altered tables -/

/-- The column of a name: the first field of the name, if it is a column. -/
def columnNamed (m : Model) (name : String) : Option Field :=
  (m.field? name).filter Field.isColumn

/-- What a wanted column asks for. -/
def reachColumn (d : Dialect) (before : Model) (after : Model) (f : Field) :
    Planning (List Statement) :=
  match columnNamed before f.name with
  | some old => alterColumn d after.name old f
  | none => do
    let definition ← f.definition d after.name
    pure [.addColumn after.name definition]

/-- The changes of a model's table. -/
def alterTable (d : Dialect) (before after : Model) : Planning (List Statement) := do
  let reached ← after.columns.mapM (reachColumn d before after)
  let dropped := before.columns.filter fun f => (columnNamed after f.name).isNone
  pure (reached.flatten ++ dropped.map fun f => .dropColumn after.name f.name)

/-- The warnings about join tables that are not deployed. -/
def missingJoinTables (desired previous : Schema) : List Entry :=
  let missing := desired.joinTables.filter fun j =>
    !previous.pairs.contains (j.left, j.right) && !previous.modelNames.contains j.name
  missing.map fun j =>
    ⟨.warning, s!"Join table '{j.name}' for {j.left} <-> {j.right} is not deployed; " ++
      "many-to-many changes are not migrated automatically"⟩

/-- The changes from a deployed schema. -/
def diff (d : Dialect) (desired previous : Schema) : Planning (List Statement) := do
  let created ← createTables d desired
    (desired.modelNames.filter fun name => !previous.modelNames.contains name)
  let altered ← desired.models.mapM fun m =>
    match previous.model? m.name with
    | some before => alterTable d before m
    | none => pure []
  let order ← previous.dependencies.sorted
    (previous.modelNames.filter fun name => !desired.modelNames.contains name)
  Journal.notes (missingJoinTables desired previous)
  pure (created ++ altered.flatten ++ order.reverse.map .dropTable)

end Plan

/-- The statements that lead from what is deployed to the desired schema. -/
def plan (d : Dialect) (desired : Schema) (previous : Option Schema) : Planning (List Statement) :=
  match previous with
  | none => Plan.createAll d desired
  | some previous => Plan.diff d desired previous

/-- The script that leads from what is deployed to the desired schema. -/
def planScript (s : Style) (desired : Schema) (previous : Option Schema) : Planning Script :=
  Script.ofStatements s <$> plan s.dialect desired previous

end Schemata
