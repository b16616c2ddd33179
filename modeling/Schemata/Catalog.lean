import Schemata.Journal

/-!
# Catalogs

What a database tells of its tables.  A snapshot is a list of tables with different names, and
a table has columns and constraints with different names; each list is in the order in which the
names came up.  `putNamed` keeps it so: an item with a known name takes the place of the item
that had it.

* `map_putNamed_of_mem`, `map_putNamed_of_not_mem` — the names after an item is put.
* `nodup_distinctNamed` — the names of a list that was put together item by item are different.
-/

namespace Schemata

/-- The list with `x` in it: at the place of the item of the same name, or at the end. -/
def putNamed {α : Type} (name : α → String) (x : α) : List α → List α
  | [] => [x]
  | y :: ys => if name y = name x then x :: ys else y :: putNamed name x ys

/-- A list put together item by item. -/
def distinctNamed {α : Type} (name : α → String) (xs : List α) : List α :=
  xs.foldl (fun ys x => putNamed name x ys) []

theorem map_putNamed_of_mem {α : Type} (name : α → String) (x : α) (ys : List α)
    (h : name x ∈ ys.map name) : (putNamed name x ys).map name = ys.map name := by
  induction ys with
  | nil => simp at h
  | cons y ys ih =>
    unfold putNamed
    split
    next heq => simp [heq]
    next hne =>
      have : name x ∈ ys.map name := (List.mem_cons.1 h).resolve_left fun e => hne e.symm
      simp [ih this]

theorem map_putNamed_of_not_mem {α : Type} (name : α → String) (x : α) (ys : List α)
    (h : name x ∉ ys.map name) : (putNamed name x ys).map name = ys.map name ++ [name x] := by
  induction ys with
  | nil => rfl
  | cons y ys ih =>
    rw [List.map_cons, List.mem_cons, not_or] at h
    have hne : name y ≠ name x := fun e => h.1 e.symm
    simp [putNamed, hne, ih h.2]

theorem nodup_putNamed {α : Type} (name : α → String) (x : α) (ys : List α)
    (h : (ys.map name).Nodup) : ((putNamed name x ys).map name).Nodup := by
  by_cases hx : name x ∈ ys.map name
  · rwa [map_putNamed_of_mem name x ys hx]
  · rw [map_putNamed_of_not_mem name x ys hx, List.nodup_append]
    refine ⟨h, by simp, fun a ha b hb => ?_⟩
    rw [List.mem_singleton] at hb
    exact fun e => hx (hb ▸ e ▸ ha)

theorem nodup_distinctNamed {α : Type} (name : α → String) (xs : List α) :
    ((distinctNamed name xs).map name).Nodup := by
  unfold distinctNamed
  have : ∀ ys : List α, (ys.map name).Nodup →
      ((xs.foldl (fun ys x => putNamed name x ys) ys).map name).Nodup := by
    induction xs with
    | nil => exact fun ys h => h
    | cons x xs ih => exact fun ys h => ih _ (nodup_putNamed name x ys h)
  exact this [] (by simp)

/-- A column as the catalog tells of it.  Of the texts that describe its type, `elementType` is
the one Postgres gives for arrays, `fullType` the one MySQL gives; `extra` is MySQL's remark. -/
structure Column where
  name : String
  dataType : String
  elementType : String := ""
  fullType : String := ""
  isNullable : Bool := true
  default : Option String := none
  extra : String := ""
  deriving DecidableEq, Repr

/-- A constraint as the catalog tells of it. -/
structure Constraint where
  name : String
  kind : String
  columns : List String := []
  table : Option String := none
  targets : Option (List String) := none
  deriving DecidableEq, Repr

/-- A table as the catalog tells of it. -/
structure Table where
  name : String
  columns : List Column := []
  constraints : List Constraint := []
  deriving DecidableEq, Repr

namespace Table

/-- A table of columns and constraints that may repeat names. -/
def ofLists (name : String) (columns : List Column) (constraints : List Constraint) : Table :=
  ⟨name, distinctNamed Column.name columns, distinctNamed Constraint.name constraints⟩

/-- The columns of the constraints of a kind. -/
def keyed (t : Table) (kind : String) : List String :=
  (t.constraints.filter fun c => c.kind == kind).flatMap Constraint.columns

/-- The columns of the primary key. -/
def primaryKey (t : Table) : List String := t.keyed "PRIMARY KEY"

/-- The unique constraints. -/
def uniques (t : Table) : List (List String) :=
  (t.constraints.filter fun c => c.kind == "UNIQUE").map Constraint.columns

/-- The foreign keys of one column: the column, and the table it refers to.  Of several foreign
keys of a column the last one counts. -/
def foreignKeys (t : Table) : List (String × String) :=
  distinctNamed Prod.fst <| t.constraints.filterMap fun c =>
    match c.columns, c.table with
    | [column], some table =>
      if c.kind == "FOREIGN KEY" && table != "" then some (column, table) else none
    | _, _ => none

end Table

/-- The tables of a database. -/
abbrev Snapshot : Type := List Table

/-- The snapshot of tables that may repeat names. -/
def Snapshot.ofList (tables : List Table) : Snapshot := distinctNamed Table.name tables

end Schemata
