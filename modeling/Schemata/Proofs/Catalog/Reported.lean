import Schemata.Proofs.Catalog.Folding
import Schemata.Proofs.Database
import Schemata.Proofs.Plan.Statements

/-!
# Proofs — catalogs — what is reported of new tables

What a Postgres catalog tells of tables that were just created (`Snapshot.Reports`): a table for
each statement, in any order; its columns as they are declared, with the catalog's names for their
types and its spelling of their defaults; and the constraints that the statement declares, under
any names and in any order.

What the catalog's tables say of keys can then be read off the statements:
`Table.Reports.mem_primaryKey_iff`, `Table.Reports.mem_uniques_iff` and
`Table.Reports.refers_iff`.
-/

namespace Schemata

/-- The declared types, with the catalog's name of each and its short name. -/
def reportedTypes : List (String × String × String) :=
  [("SERIAL", "integer", "int4"), ("INTEGER", "integer", "int4"),
   ("VARCHAR(255)", "character varying", "varchar"), ("REAL", "real", "float4"),
   ("BOOLEAN", "boolean", "bool"), ("JSONB", "jsonb", "jsonb"),
   ("TIMESTAMP", "timestamp without time zone", "timestamp"), ("DATE", "date", "date")]

/-- The two names of a declared type.  The short name of an array is that of its elements after an
underscore. -/
def reportedType? (type : String) : Option (String × String) :=
  match reportedTypes.lookup type with
  | some names => some names
  | none => (reportedTypes.find? fun t => t.1 ++ "[]" == type).map fun t => ("ARRAY", "_" ++ t.2.2)

/-- The default that is reported of a declared column: a sequence for one that counts up, words as
they are, and a string with its type after it. -/
def ReportsDefault (c : ColumnDefinition) (raw : Option String) : Prop :=
  if c.type = "SERIAL" then ∃ sequence, raw = some ("nextval(" ++ sequence)
  else
    match c.default with
    | none => raw = none
    | some (.verbatim text) => raw = some text
    | some (.quoted text) =>
      ∃ type : String, '\'' ∉ type.toList ∧ raw = some (enclosed '\'' text ++ "::" ++ type)

/-- What Postgres shows of a default: words as they are, and a string with its type after it, which
may be any text without a quote. -/
def Expression.IsShownAs : Option Expression → Option String → Prop
  | none, raw => raw = none
  | some (.verbatim text), raw => raw = some text
  | some (.quoted text), raw =>
    ∃ type : String, '\'' ∉ type.toList ∧
      raw = some ((Expression.quoted text).render ++ "::" ++ type)

theorem reportsDefault_none {c : ColumnDefinition} (htype : c.type ≠ "SERIAL")
    (hdefault : c.default = none) : ReportsDefault c none := by
  unfold ReportsDefault
  rw [if_neg htype, hdefault]

/-- What is reported of a declared column. -/
structure Column.Reports (r : Column) (c : ColumnDefinition) : Prop where
  name : r.name = c.name
  type : reportedType? c.type = some (r.dataType, r.elementType)
  isNullable : r.isNullable = !(c.isKey || c.isNotNull)
  default : ReportsDefault c r.default

/-- The constraints that a part of a table declares, without names. -/
def TableElement.constraints : TableElement → List Constraint
  | .column c =>
    (if c.isKey then [{ name := "", kind := "PRIMARY KEY", columns := [c.name] }] else []) ++
      if c.isUnique then [{ name := "", kind := "UNIQUE", columns := [c.name] }] else []
  | .unique columns => [{ name := "", kind := "UNIQUE", columns }]
  | .foreignKey key table target _ =>
    [{ name := "", kind := "FOREIGN KEY", columns := [key], table := some table
       targets := some [target] }]

/-- The constraints of a part of a declaration are those of its columns, and what it says itself. -/
theorem TableElement.mem_constraints_iff {e : TableElement} {c : Constraint} :
    c ∈ e.constraints ↔
      (∃ d, e = .column d ∧ d.isKey ∧ c = ⟨"", "PRIMARY KEY", [d.name], none, none⟩) ∨
      (∃ d, e = .column d ∧ d.isUnique ∧ c = ⟨"", "UNIQUE", [d.name], none, none⟩) ∨
      (∃ columns, e = .unique columns ∧ c = ⟨"", "UNIQUE", columns, none, none⟩) ∨
      ∃ key table target cascades, e = .foreignKey key table target cascades ∧
        c = ⟨"", "FOREIGN KEY", [key], some table, some [target]⟩ := by
  cases e with
  | column d => cases hk : d.isKey <;> cases hu : d.isUnique <;> simp [constraints, hk, hu]
  | unique columns => simp [constraints]
  | foreignKey key table target cascades => simp [constraints]

/-- A constraint without its name. -/
def Constraint.unnamed (c : Constraint) : Constraint := { c with name := "" }

/-- What is reported of a declared table. -/
structure Table.Reports (t : Table) (elements : List TableElement) : Prop where
  columns : List.Forall₂ Column.Reports t.columns (columnsOf elements)
  constraints : ∀ c, c ∈ t.constraints.map Constraint.unnamed ↔
    c ∈ elements.flatMap TableElement.constraints

/-- What is reported after statements that create tables. -/
structure Snapshot.Reports (s : Snapshot) (stmts : List Statement) : Prop where
  distinct : s.names.Nodup
  declared : ∀ t ∈ s, ∃ elements, .createTable t.name elements ∈ stmts ∧ t.Reports elements
  complete : ∀ name elements, .createTable name elements ∈ stmts →
    ∃ t ∈ s, t.name = name ∧ t.Reports elements

/-- Tables reported one for each statement. -/
theorem Snapshot.Reports.of_forall₂ {s : Snapshot} {stmts : List Statement} (hnames : s.names.Nodup)
    (h : List.Forall₂
      (fun t st => ∃ elements, st = .createTable t.name elements ∧ t.Reports elements) s stmts) :
    s.Reports stmts := by
  refine ⟨hnames, fun t ht => ?_, fun name elements hst => ?_⟩
  · obtain ⟨st, hst, elements, rfl, hreports⟩ := exists_of_forall₂ h ht
    exact ⟨elements, hst, hreports⟩
  · obtain ⟨t, ht, elements, heq, hreports⟩ := exists_of_forall₂ h.flip hst
    cases heq
    exact ⟨t, ht, rfl, hreports⟩

/-! ### Keys -/

theorem mem_columnsOf_iff {elements : List TableElement} {c : ColumnDefinition} :
    c ∈ columnsOf elements ↔ .column c ∈ elements := by
  unfold columnsOf
  rw [List.mem_filterMap]
  constructor
  · rintro ⟨e, he, h⟩
    cases e <;> cases h
    exact he
  · exact fun h => ⟨_, h, rfl⟩

namespace Table

theorem mem_uniques_iff {t : Table} {columns : List String} :
    columns ∈ t.uniques ↔ ∃ c ∈ t.constraints, c.kind = "UNIQUE" ∧ c.columns = columns := by
  unfold uniques
  simp [and_assoc]

namespace Reports

variable {t : Table} {elements : List TableElement}

/-- A constraint of the table, by what it says. -/
theorem exists_constraint_iff (h : t.Reports elements) {P : Constraint → Prop}
    (hP : ∀ c, P c.unnamed ↔ P c) :
    (∃ c ∈ t.constraints, P c) ↔ ∃ e ∈ elements, ∃ c ∈ e.constraints, P c := by
  constructor
  · rintro ⟨c, hc, hp⟩
    obtain ⟨e, he, hce⟩ := List.mem_flatMap.mp ((h.constraints _).mp (List.mem_map_of_mem hc))
    exact ⟨e, he, _, hce, (hP c).mpr hp⟩
  · rintro ⟨e, he, c, hc, hp⟩
    obtain ⟨k, hk, rfl⟩ := List.mem_map.mp
      ((h.constraints c).mpr (List.mem_flatMap.mpr ⟨e, he, hc⟩))
    exact ⟨k, hk, (hP k).mp hp⟩

/-- The primary key of a reported table is made of its columns that are keys. -/
theorem mem_primaryKey_iff (h : t.Reports elements) {n : String} :
    n ∈ t.primaryKey ↔ ∃ c ∈ columnsOf elements, c.name = n ∧ c.isKey := by
  rw [Table.mem_primaryKey_iff, h.exists_constraint_iff fun _ => Iff.rfl]
  constructor
  · rintro ⟨e, he, c, hc, hkind, hn⟩
    rcases TableElement.mem_constraints_iff.mp hc with
      ⟨d, rfl, hkey, rfl⟩ | ⟨d, rfl, -, rfl⟩ | ⟨columns, rfl, rfl⟩ | ⟨_, _, _, _, rfl, rfl⟩
    · exact ⟨d, mem_columnsOf_iff.mpr he, (List.mem_singleton.mp hn).symm, hkey⟩
    all_goals simp at hkind
  · rintro ⟨d, hd, rfl, hkey⟩
    exact ⟨_, mem_columnsOf_iff.mp hd, _,
      TableElement.mem_constraints_iff.mpr (.inl ⟨d, rfl, hkey, rfl⟩), rfl, List.mem_cons_self⟩

/-- The unique columns of a reported table are single ones, and those that are declared together. -/
theorem mem_uniques_iff (h : t.Reports elements) {columns : List String} :
    columns ∈ t.uniques ↔
      (∃ c ∈ columnsOf elements, [c.name] = columns ∧ c.isUnique) ∨ .unique columns ∈ elements := by
  rw [Table.mem_uniques_iff, h.exists_constraint_iff fun _ => Iff.rfl]
  constructor
  · rintro ⟨e, he, c, hc, hkind, rfl⟩
    rcases TableElement.mem_constraints_iff.mp hc with
      ⟨d, rfl, -, rfl⟩ | ⟨d, rfl, hunique, rfl⟩ | ⟨columns, rfl, rfl⟩ | ⟨_, _, _, _, rfl, rfl⟩
    · simp at hkind
    · exact .inl ⟨d, mem_columnsOf_iff.mpr he, rfl, hunique⟩
    · exact .inr he
    · simp at hkind
  · rintro (⟨d, hd, rfl, hunique⟩ | he)
    · exact ⟨_, mem_columnsOf_iff.mp hd, _,
        TableElement.mem_constraints_iff.mpr (.inr (.inl ⟨d, rfl, hunique, rfl⟩)), rfl, rfl⟩
    · exact ⟨_, he, _,
        TableElement.mem_constraints_iff.mpr (.inr (.inr (.inl ⟨_, rfl, rfl⟩))), rfl, rfl⟩

/-- The foreign keys of a reported table are those that are declared, to a table with a name. -/
theorem refers_iff (h : t.Reports elements) {column target : String} :
    t.Refers column target ↔
      target ≠ "" ∧ ∃ key cascades, .foreignKey column target key cascades ∈ elements := by
  unfold Refers
  refine and_congr_right fun _ => ?_
  rw [h.exists_constraint_iff fun _ => Iff.rfl]
  constructor
  · rintro ⟨e, he, c, hc, hkind, hcolumns, htable⟩
    rcases TableElement.mem_constraints_iff.mp hc with
      ⟨d, rfl, -, rfl⟩ | ⟨d, rfl, -, rfl⟩ | ⟨columns, rfl, rfl⟩ | ⟨_, _, key, cascades, rfl, rfl⟩
    · simp at hkind
    · simp at hkind
    · simp at hkind
    · cases hcolumns
      cases htable
      exact ⟨key, cascades, he⟩
  · rintro ⟨key, cascades, he⟩
    exact ⟨_, he, _, TableElement.mem_constraints_iff.mpr
      (.inr (.inr (.inr ⟨_, _, _, _, rfl, rfl⟩))), rfl, rfl, rfl⟩

end Reports

end Table

end Schemata
