import Schemata.Catalog
import Schemata.Dialect

/-!
# Catalogs — rows

What a database answers when it is asked for the columns and the constraints of a table, row by
row, and what the rows add up to.

A constraint takes as many rows as it has columns, and may take more: the rows of one constraint
need not stand together, and may say the same thing twice.  `Constraint.ofRows` gathers them.  The
first row of a constraint says of what kind it is and which table it refers to; every row adds its
column, and a row of a foreign key also the column that is referred to, each only once.
-/

namespace Schemata

/-- What is answered for a column. -/
structure ColumnRow where
  name : String
  dataType : String
  fullType : Option String
  nullable : String
  default : Option String
  extra : Option String
  deriving DecidableEq, Repr

/-- The column of a row.  Postgres gives the name of an array's element type where MySQL gives the
type in full. -/
def ColumnRow.column (d : Dialect) (r : ColumnRow) : Column :=
  let column : Column :=
    { name := r.name, dataType := r.dataType, isNullable := r.nullable == "YES"
      default := r.default, extra := r.extra.getD "" }
  if d = .mysql then { column with fullType := r.fullType.getD "" }
  else { column with elementType := r.fullType.getD "" }

/-- What is answered for a column of a constraint. -/
structure ConstraintRow where
  name : String
  kind : String
  column : String
  table : Option String
  target : Option String
  deriving DecidableEq, Repr

/-- The list with `x` at its end, if it is not in it. -/
def addNew (x : String) (xs : List String) : List String :=
  if xs.contains x then xs else xs ++ [x]

namespace Constraint

/-- The constraint of which a row is the first. -/
def begun (r : ConstraintRow) : Constraint :=
  { name := r.name
    kind := r.kind
    table := if r.kind = "FOREIGN KEY" then r.table else none
    targets := if r.kind = "FOREIGN KEY" then some [] else none }

/-- The constraint with the columns of a row. -/
def withRow (c : Constraint) (r : ConstraintRow) : Constraint :=
  { c with
    columns := addNew r.column c.columns
    targets := c.targets.map fun targets =>
      match r.target with
      | some target => if target.isEmpty then targets else addNew target targets
      | none => targets }

/-- The constraints with a row added to the one of its name, or to a new one. -/
def addRow (r : ConstraintRow) : List Constraint → List Constraint
  | [] => [(begun r).withRow r]
  | c :: cs => if c.name = r.name then c.withRow r :: cs else c :: addRow r cs

/-- The constraints of rows. -/
def ofRows (rows : List ConstraintRow) : List Constraint :=
  rows.foldl (fun cs r => addRow r cs) []

/-- A row changes the names of the constraints only by adding its own. -/
theorem map_name_addRow (r : ConstraintRow) (cs : List Constraint) :
    (addRow r cs).map name = addNew r.name (cs.map name) := by
  induction cs with
  | nil => rfl
  | cons c cs ih =>
    unfold addRow
    split
    next h => simp [addNew, withRow, h]
    next h =>
      have h' : (r.name == c.name) = false := by simpa using Ne.symm h
      simp only [List.map_cons, ih, addNew, List.contains_cons, h', Bool.false_or]
      split <;> simp

end Constraint

/-- The table of rows. -/
def Table.ofRows (d : Dialect) (name : String) (columns : List ColumnRow)
    (constraints : List ConstraintRow) : Table :=
  ⟨name, distinctNamed Column.name (columns.map (·.column d)), Constraint.ofRows constraints⟩

end Schemata
