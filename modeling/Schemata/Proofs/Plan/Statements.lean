import Schemata.Plan
import Schemata.Proofs.Plan.Column
import Schemata.Proofs.Plan.Order
import Schemata.Proofs.Schema.Names

/-!
# Proofs — the statements of a plan

What a plan consists of, without the journal.  Each part of planning ends well under a condition
on defaults, and then with statements that are a plain function of the schemas; the names are
those of the functions they belong to.  `Plan.createAll_ok_iff` and `Plan.diff_ok_iff` put the
parts together, one for the plan of a fresh script and one for the plan against what is deployed:
the proofs about plans start there.

The condition on a kept column (`Plan.Writes`) says when its default is looked at: where it is
written, or, where columns cannot be altered, where it would be.
-/

namespace Schemata

namespace Model

/-- What is declared of a model's table. -/
def elements (m : Model) (d : Dialect) : List TableElement :=
  (m.columns.map fun f => f.declaration d).map .column ++ m.uniques.map .unique ++
    m.fields.filterMap Plan.foreignKey?

/-- The statement that creates a model's table. -/
def creation (m : Model) (d : Dialect) : Statement := .createTable m.name (m.elements d)

/-- Every literal default of a column of the model is one for its type. -/
def Fits (m : Model) : Prop := ∀ f ∈ m.columns, f.Fits

theorem isColumn_of_mem_columns {m : Model} {f : Field} (h : f ∈ m.columns) : f.isColumn :=
  (List.mem_filter.mp h).2

end Model

namespace Plan

/-! ### New tables -/

/-- **A new table** is planned exactly if all defaults fit, and then it is that of the model. -/
theorem createTable_ok_iff {d : Dialect} {m : Model} {st : Statement} :
    (createTable d m).outcome = .ok st ↔ m.Fits ∧ st = m.creation d := by
  have spec : ∀ f ∈ m.columns, ∀ c : ColumnDefinition,
      (f.definition d m.name).outcome = .ok c ↔ f.Fits ∧ c = f.declaration d := fun f hf c => by
    rw [Field.definition_ok_iff]
    exact and_iff_right (Model.isColumn_of_mem_columns hf)
  unfold createTable Model.creation Model.elements
  simp only [Journal.bind_ok_iff, Journal.mapM_ok_iff_of_spec spec, Journal.pure_ok_iff]
  constructor
  · rintro ⟨_, ⟨hfits, rfl⟩, rfl⟩
    exact ⟨hfits, rfl⟩
  · rintro ⟨hfits, rfl⟩
    exact ⟨_, ⟨hfits, rfl⟩, rfl⟩

/-- The key of a model that a join table refers to, and what it holds. -/
def keyOf (d : Dialect) (s : Schema) (model : String) : String × String :=
  match ((s.model? model).bind Model.primaryKey?).filter Field.isColumn with
  | some f => (f.name, plainType (f.storedType d))
  | none => ("id", Scalar.int.nativeType d)

/-- What is declared of a join table. -/
def linkElements (d : Dialect) (s : Schema) (j : JoinTable) : List TableElement :=
  let a := "A_" ++ (keyOf d s j.left).1
  let b := "B_" ++ (keyOf d s j.right).1
  [joinColumn a (keyOf d s j.left).2, joinColumn b (keyOf d s j.right).2,
   .foreignKey a j.left (keyOf d s j.left).1 true,
   .foreignKey b j.right (keyOf d s j.right).1 true,
   .unique [a, b]]

/-- The statement that creates a join table. -/
def linkCreation (d : Dialect) (s : Schema) (j : JoinTable) : Statement :=
  .createTable j.name (linkElements d s j)

theorem joinKey_outcome (d : Dialect) (s : Schema) (model : String) :
    (joinKey d s model).outcome = .ok (keyOf d s model) := by
  unfold joinKey keyOf
  cases h : ((s.model? model).bind Model.primaryKey?).filter Field.isColumn with
  | none => rfl
  | some f =>
      obtain ⟨-, hcol⟩ := Option.filter_eq_some_iff.mp h
      exact Journal.bind_ok_iff.mpr
        ⟨_, Journal.ofExcept_ok_iff.mpr (Field.columnType_ok_iff.mpr ⟨hcol, rfl⟩), rfl⟩

theorem createJoinTable_outcome (d : Dialect) (s : Schema) (j : JoinTable) :
    (createJoinTable d s j).outcome = .ok (linkCreation d s j) := by
  unfold createJoinTable
  refine Journal.bind_ok_iff.mpr ⟨_, joinKey_outcome d s j.left, ?_⟩
  exact Journal.bind_ok_iff.mpr ⟨_, joinKey_outcome d s j.right, rfl⟩

/-- The named models, in the order in which their tables are created. -/
def inOrder (s : Schema) (names : List String) : List Model :=
  let sorted := s.dependencies.sort names
  (sorted.1 ++ sorted.2).filterMap s.model?

/-- **New tables** are planned exactly if all their defaults fit, each table in its place. -/
theorem createTables_ok_iff {d : Dialect} {s : Schema} {names : List String}
    {stmts : List Statement} :
    (createTables d s names).outcome = .ok stmts ↔
      (∀ m ∈ inOrder s names, m.Fits) ∧ stmts = (inOrder s names).map (·.creation d) := by
  unfold createTables inOrder
  rw [Journal.bind_ok_iff]
  simp only [Dependencies.sorted_outcome, Except.ok.injEq, exists_eq_left']
  exact Journal.mapM_ok_iff_of_spec fun m _ st => createTable_ok_iff

/-- A fresh script is planned exactly if all defaults fit: the tables, and then the join tables. -/
theorem createAll_ok_iff {d : Dialect} {s : Schema} {stmts : List Statement} :
    (createAll d s).outcome = .ok stmts ↔
      (∀ m ∈ inOrder s s.modelNames, m.Fits) ∧
        stmts = (inOrder s s.modelNames).map (·.creation d) ++
          s.joinTables.map (linkCreation d s) := by
  have links : (s.joinTables.mapM (createJoinTable d s)).outcome =
      .ok (s.joinTables.map (linkCreation d s)) :=
    (Journal.mapM_ok_iff_of_spec (P := fun _ => True) fun j _ st => by
      rw [createJoinTable_outcome]
      exact ⟨fun h => ⟨trivial, (Except.ok.inj h).symm⟩, fun h => by rw [h.2]⟩).mpr
      ⟨fun _ _ => trivial, rfl⟩
  unfold createAll
  simp only [Journal.bind_ok_iff, createTables_ok_iff, links, Except.ok.injEq, exists_eq_left',
    Journal.pure_ok_iff]
  constructor
  · rintro ⟨_, ⟨hfits, rfl⟩, rfl⟩
    exact ⟨hfits, rfl⟩
  · rintro ⟨hfits, rfl⟩
    exact ⟨_, ⟨hfits, rfl⟩, rfl⟩

/-- To be in order is to be one of the named models. -/
theorem mem_inOrder_iff {s : Schema} (h : s.modelNames.Nodup) {names : List String} {m : Model} :
    m ∈ inOrder s names ↔ m ∈ s.models ∧ m.name ∈ names := by
  have hperm := s.dependencies.sort_perm names
  unfold inOrder
  simp only [List.mem_filterMap, hperm.mem_iff, Schema.model?_eq_some_iff h]
  constructor
  · rintro ⟨_, hn, hm, rfl⟩
    exact ⟨hm, hn⟩
  · rintro ⟨hm, hn⟩
    exact ⟨_, hn, hm, rfl⟩

/-- The models that are found for names of models have these names. -/
theorem map_name_filterMap_model? {s : Schema} {names : List String}
    (h : ∀ name ∈ names, name ∈ s.modelNames) :
    (names.filterMap s.model?).map Model.name = names := by
  induction names with
  | nil => rfl
  | cons name names ih =>
      obtain ⟨m, hm⟩ := Schema.exists_model? (h name List.mem_cons_self)
      rw [List.filterMap_cons_some hm, List.map_cons, (Schema.mem_of_model? hm).2,
        ih fun n hn => h n (List.mem_cons_of_mem name hn)]

/-- The models in order are the named ones. -/
theorem map_name_inOrder_perm {s : Schema} {names : List String}
    (h : ∀ name ∈ names, name ∈ s.modelNames) :
    ((inOrder s names).map Model.name).Perm names := by
  have hperm := s.dependencies.sort_perm names
  unfold inOrder
  rw [map_name_filterMap_model? fun name hname => h name (hperm.mem_iff.mp hname)]
  exact hperm

/-! ### Altered columns -/

/-- Whether the column is restated as a whole. -/
def restates (d : Dialect) (old new : Field) : Bool :=
  d = .mysql && (old.storedType d != new.storedType d ||
    (old.isNotNull != new.isNotNull && !weakensKey old new))

/-- Whether the column is given another default. -/
def setsDefault (old new : Field) : Bool :=
  !Default.sameOption old.default new.default && !(old.isAutoincrement || new.isAutoincrement)

/-- Whether the new default of a kept column is looked at. -/
def Writes (d : Dialect) (old new : Field) : Prop :=
  if d = .sqlite then Default.sameOption old.default new.default = false
  else restates d old new ∨ setsDefault old new

/-- The statements about a default. -/
def defaultChanges (d : Dialect) (table : String) (old new : Field) : List Statement :=
  if setsDefault old new then [.setDefault table new.name (new.storedDefault d)]
  else if Default.sameOption old.default new.default then []
  else [.warning (.autoincrementChange new.name)]

/-- The statements about the type. -/
def typeChanges (d : Dialect) (table : String) (old new : Field) : List Statement :=
  if old.storedType d != new.storedType d && d != .mysql then
    [.setType table new.name (new.storedType d)
      (d = .postgres && new.typeName == Scalar.json.name)]
  else []

/-- The changes of a column where columns can be altered. -/
def inPlace (d : Dialect) (table : String) (old new : Field) : List Statement :=
  alterNullability d table old new ++
    (if restates d old new then [Statement.modifyColumn table (new.restated d)] else []) ++
    defaultChanges d table old new ++ typeChanges d table old new ++
    alterUniqueness (.addUnique table new.name) old new

/-- The properties that would have to be altered where columns cannot be. -/
def unalterable (d : Dialect) (old new : Field) : List Aspect :=
  (if old.isNotNull != new.isNotNull && !weakensKey old new then [Aspect.nullability] else []) ++
    (if !Default.sameOption old.default new.default then [Aspect.default] else []) ++
    (if old.storedType d != new.storedType d then [Aspect.type] else [])

/-- The changes of a column where nothing but uniqueness can be altered. -/
def rebuilding (d : Dialect) (table : String) (old new : Field) : List Statement :=
  (if weakensKey old new then [Statement.warning (.keyMayNotBeNull new.name)] else []) ++
    (if (unalterable d old new).isEmpty then []
      else [Statement.warning (.unalterable (unalterable d old new) table new.name)]) ++
    alterUniqueness (.createUniqueIndex (table ++ "_" ++ new.name ++ "_key") table new.name) old new

/-- The changes of a column. -/
def changes (d : Dialect) (table : String) (old new : Field) : List Statement :=
  if d = .sqlite then rebuilding d table old new else inPlace d table old new

/-- What a change of a kept column can be. -/
inductive Change (d : Dialect) (table : String) (old new : Field) : Statement → Prop
  | told (w : Warning) : Change d table old new (.warning w)
  | nullability (kept : weakensKey old new = false) :
      Change d table old new (.setNotNull table new.name new.isNotNull)
  | whole (restated : restates d old new = true) :
      Change d table old new (.modifyColumn table (new.restated d))
  | default (e : Option Expression) : Change d table old new (.setDefault table new.name e)
  | type (t : String) (converts : Bool) : Change d table old new (.setType table new.name t converts)
  | unique : Change d table old new (.addUnique table new.name)
  | uniqueIndex (index : String) : Change d table old new (.createUniqueIndex index table new.name)

section

variable {d : Dialect} {table : String} {old new : Field} {st : Statement}

theorem change_of_mem_alterUniqueness {add : Statement} (hadd : Change d table old new add)
    (h : st ∈ alterUniqueness add old new) : Change d table old new st := by
  simp only [alterUniqueness, List.mem_ite_nil_left] at h
  obtain ⟨-, h⟩ := h
  split at h
  · rwa [List.mem_singleton.mp h]
  · rw [List.mem_singleton.mp h]
    exact .told _

theorem change_of_mem_rebuilding (h : st ∈ rebuilding d table old new) :
    Change d table old new st := by
  simp only [rebuilding, List.mem_append, List.mem_ite_nil_left, List.mem_ite_nil_right,
    List.mem_singleton] at h
  rcases h with (⟨-, rfl⟩ | ⟨-, rfl⟩) | h
  · exact .told _
  · exact .told _
  · exact change_of_mem_alterUniqueness (.uniqueIndex _) h

/-- Every statement for a column that is altered in place is one of the changes. -/
theorem change_of_mem_inPlace (h : st ∈ inPlace d table old new) : Change d table old new st := by
  simp only [inPlace, List.mem_append, List.mem_ite_nil_right, List.mem_singleton] at h
  rcases h with (((h | ⟨hr, rfl⟩) | h) | h) | h
  · unfold alterNullability at h
    split at h
    next => rw [List.mem_singleton.mp h]; exact .told _
    next hw =>
        rw [List.mem_ite_nil_right, List.mem_singleton] at h
        rw [h.2]
        exact .nullability (Bool.eq_false_iff.mpr hw)
  · exact .whole hr
  · unfold defaultChanges at h
    split at h
    next => rw [List.mem_singleton.mp h]; exact .default _
    next =>
        rw [List.mem_ite_nil_left, List.mem_singleton] at h
        rw [h.2]
        exact .told _
  · rw [typeChanges, List.mem_ite_nil_right, List.mem_singleton] at h
    rw [h.2]
    exact .type _ _
  · exact change_of_mem_alterUniqueness .unique h

/-- **Every statement for a kept column** is one of a few. -/
theorem change_of_mem (h : st ∈ changes d table old new) : Change d table old new st := by
  unfold changes at h
  split at h
  · exact change_of_mem_rebuilding h
  · exact change_of_mem_inPlace h

variable {w : Warning}

theorem warning_mem_alterUniqueness_iff {add : Statement} (hadd : add.isWarning = false) :
    .warning w ∈ alterUniqueness add old new ↔
      (old.hasUniqueConstraint = true ∧ new.hasUniqueConstraint = false) ∧
        w = .uniqueRemoval new.name := by
  have hne : Statement.warning w ≠ add := by
    rintro rfl
    cases hadd
  unfold alterUniqueness
  cases old.hasUniqueConstraint <;> cases new.hasUniqueConstraint <;> simp [hne]

theorem warning_mem_defaultChanges_iff :
    .warning w ∈ defaultChanges d table old new ↔
      (Default.sameOption old.default new.default = false ∧
        (old.isAutoincrement ∨ new.isAutoincrement)) ∧ w = .autoincrementChange new.name := by
  unfold defaultChanges setsDefault
  cases Default.sameOption old.default new.default <;>
    cases old.isAutoincrement <;> cases new.isAutoincrement <;> simp

/-- **Every remark about a kept column**, and when it is made: that a key may not be weakened, that
properties cannot be altered in place, that nothing is done about counting up, and that a
constraint is not removed. -/
theorem warning_mem_changes_iff :
    .warning w ∈ changes d table old new ↔
      weakensKey old new ∧ w = .keyMayNotBeNull new.name ∨
      (d = .sqlite ∧ unalterable d old new ≠ []) ∧
        w = .unalterable (unalterable d old new) table new.name ∨
      (d ≠ .sqlite ∧ Default.sameOption old.default new.default = false ∧
        (old.isAutoincrement ∨ new.isAutoincrement)) ∧ w = .autoincrementChange new.name ∨
      (old.hasUniqueConstraint = true ∧ new.hasUniqueConstraint = false) ∧
        w = .uniqueRemoval new.name := by
  have hnullability : .warning w ∈ alterNullability d table old new ↔
      weakensKey old new ∧ w = .keyMayNotBeNull new.name := by
    unfold alterNullability
    cases weakensKey old new <;> simp
  have huniqueness {add : Statement} (hadd : add.isWarning = false) :
      .warning w ∈ alterUniqueness add old new ↔
        (old.hasUniqueConstraint = true ∧ new.hasUniqueConstraint = false) ∧
          w = .uniqueRemoval new.name := warning_mem_alterUniqueness_iff hadd
  unfold changes
  by_cases hd : d = .sqlite
  · simp [hd, rebuilding, @huniqueness (.createUniqueIndex _ _ _) rfl]
  · simp [hd, inPlace, typeChanges, hnullability, warning_mem_defaultChanges_iff,
      @huniqueness (.addUnique _ _) rfl]

end

/-- A default is altered exactly if it need not be written or fits. -/
theorem alterDefault_ok_iff {d : Dialect} {table : String} {old new : Field}
    {stmts : List Statement} :
    (alterDefault d table old new).outcome = .ok stmts ↔
      (setsDefault old new → new.Fits) ∧ stmts = defaultChanges d table old new := by
  unfold alterDefault defaultChanges setsDefault
  cases Default.sameOption old.default new.default <;>
    cases old.isAutoincrement || new.isAutoincrement
  · simp only [Bool.false_eq_true, if_false, Bool.not_false, Bool.and_self, if_true,
      forall_const, Journal.bind_ok_iff, Field.defaultExpression_ok_iff, Journal.pure_ok_iff]
    constructor
    · rintro ⟨_, ⟨hfits, rfl⟩, rfl⟩
      exact ⟨hfits, rfl⟩
    · rintro ⟨hfits, rfl⟩
      exact ⟨_, ⟨hfits, rfl⟩, rfl⟩
  all_goals simp [eq_comm]

/-- A column is restated exactly if its default fits. -/
theorem modifyColumn_ok_iff {d : Dialect} {table : String} {new : Field} (hn : new.isColumn)
    {st : Statement} :
    (modifyColumn d table new).outcome = .ok st ↔
      new.Fits ∧ st = .modifyColumn table (new.restated d) := by
  simp only [modifyColumn, Journal.bind_ok_iff, Field.restatement_ok_iff, Journal.pure_ok_iff]
  constructor
  · rintro ⟨_, ⟨-, hfits, rfl⟩, rfl⟩
    exact ⟨hfits, rfl⟩
  · rintro ⟨hfits, rfl⟩
    exact ⟨_, ⟨hn, hfits, rfl⟩, rfl⟩

/-- A column is altered in place exactly if its default need not be written or fits. -/
theorem alterInPlace_ok_iff {d : Dialect} {table : String} {old new : Field}
    (ho : old.isColumn) (hn : new.isColumn) {stmts : List Statement} :
    (alterInPlace d table old new).outcome = .ok stmts ↔
      ((restates d old new ∨ setsDefault old new) → new.Fits) ∧
        stmts = inPlace d table old new := by
  unfold alterInPlace inPlace typeChanges
  simp only [Journal.bind_ok_iff, Journal.ofExcept_ok_iff, Field.columnType_ok_iff, ho, hn,
    true_and, exists_eq_left, ← restates.eq_def]
  cases restates d old new with
  | false =>
      simp only [Bool.false_eq_true, if_false, false_or, Journal.bind_ok_iff, Journal.pure_ok_iff,
        exists_eq_left', alterDefault_ok_iff]
      constructor
      · rintro ⟨_, ⟨hd, rfl⟩, rfl⟩
        exact ⟨hd, rfl⟩
      · rintro ⟨hd, rfl⟩
        exact ⟨_, ⟨hd, rfl⟩, rfl⟩
  | true =>
      simp only [if_true, true_or, true_implies, Journal.bind_ok_iff, Journal.pure_ok_iff,
        exists_eq_left', alterDefault_ok_iff, modifyColumn_ok_iff hn]
      constructor
      · rintro ⟨_, ⟨hfits, rfl⟩, _, ⟨-, rfl⟩, rfl⟩
        exact ⟨hfits, rfl⟩
      · rintro ⟨hfits, rfl⟩
        exact ⟨_, ⟨hfits, rfl⟩, _, ⟨fun _ => hfits, rfl⟩, rfl⟩

/-- In a table that would have to be rebuilt, a column is looked at exactly if its default stays or
fits. -/
theorem alterRebuilding_ok_iff {d : Dialect} {table : String} {old new : Field}
    (ho : old.isColumn) (hn : new.isColumn) {stmts : List Statement} :
    (alterRebuilding d table old new).outcome = .ok stmts ↔
      (Default.sameOption old.default new.default = false → new.Fits) ∧
        stmts = rebuilding d table old new := by
  unfold alterRebuilding rebuilding unalterable
  cases Default.sameOption old.default new.default with
  | false =>
      simp only [Bool.not_false, if_true, Journal.bind_ok_iff, Journal.ofExcept_ok_iff,
        Field.columnType_ok_iff, Field.defaultExpression_ok_iff, ho, hn, true_and, exists_eq_left,
        Journal.pure_ok_iff, true_implies]
      constructor
      · rintro ⟨_, ⟨hfits, -⟩, rfl⟩
        exact ⟨hfits, rfl⟩
      · rintro ⟨hfits, rfl⟩
        exact ⟨_, ⟨hfits, rfl⟩, rfl⟩
  | true =>
      simp only [Bool.not_true, Bool.false_eq_true, if_false, Journal.bind_ok_iff,
        Journal.ofExcept_ok_iff, Field.columnType_ok_iff, ho, hn, true_and, exists_eq_left,
        Journal.pure_ok_iff, reduceCtorEq, false_implies]
      exact eq_comm

/-- **The changes of a column.** -/
theorem alterColumn_ok_iff {d : Dialect} {table : String} {old new : Field}
    (ho : old.isColumn) (hn : new.isColumn) {stmts : List Statement} :
    (alterColumn d table old new).outcome = .ok stmts ↔
      (Writes d old new → new.Fits) ∧ stmts = changes d table old new := by
  unfold alterColumn Writes changes
  split
  · exact alterRebuilding_ok_iff ho hn
  · exact alterInPlace_ok_iff ho hn

/-! ### Altered tables -/

/-- The column of a model that a field of another replaces. -/
theorem isColumn_of_columnNamed {m : Model} {name : String} {f : Field}
    (h : columnNamed m name = some f) : f.isColumn :=
  (Option.filter_eq_some_iff.mp h).2

/-- The statements for a wanted column. -/
def reach (d : Dialect) (before after : Model) (f : Field) : List Statement :=
  match columnNamed before f.name with
  | some old => changes d after.name old f
  | none => [.addColumn after.name (f.declaration d)]

/-- Where the default of a wanted column is looked at, it is one for its type. -/
def ReachFits (d : Dialect) (before : Model) (f : Field) : Prop :=
  match columnNamed before f.name with
  | some old => Writes d old f → f.Fits
  | none => f.Fits

/-- The columns that are dropped. -/
def droppedColumns (before after : Model) : List Field :=
  before.columns.filter fun f => (columnNamed after f.name).isNone

/-- The statements that alter a table. -/
def tableChanges (d : Dialect) (before after : Model) : List Statement :=
  after.columns.flatMap (reach d before after) ++
    (droppedColumns before after).map fun f => Statement.dropColumn after.name f.name

/-- A wanted column is reached exactly if its default need not be written or fits. -/
theorem reachColumn_ok_iff {d : Dialect} {before after : Model} {f : Field} (hf : f.isColumn)
    {stmts : List Statement} :
    (reachColumn d before after f).outcome = .ok stmts ↔
      ReachFits d before f ∧ stmts = reach d before after f := by
  unfold reachColumn ReachFits reach
  cases h : columnNamed before f.name with
  | some old => exact alterColumn_ok_iff (isColumn_of_columnNamed h) hf
  | none =>
      simp only [Journal.bind_ok_iff, Field.definition_ok_iff, Journal.pure_ok_iff]
      constructor
      · rintro ⟨_, ⟨-, hfits, rfl⟩, rfl⟩
        exact ⟨hfits, rfl⟩
      · rintro ⟨hfits, rfl⟩
        exact ⟨_, ⟨hf, hfits, rfl⟩, rfl⟩

/-- A table is altered exactly if each of its wanted columns can be reached. -/
theorem alterTable_ok_iff {d : Dialect} {before after : Model} {stmts : List Statement} :
    (alterTable d before after).outcome = .ok stmts ↔
      (∀ f ∈ after.columns, ReachFits d before f) ∧ stmts = tableChanges d before after := by
  have spec : ∀ f ∈ after.columns, ∀ reached : List Statement,
      (reachColumn d before after f).outcome = .ok reached ↔
        ReachFits d before f ∧ reached = reach d before after f :=
    fun f hf _ => reachColumn_ok_iff (Model.isColumn_of_mem_columns hf)
  unfold alterTable tableChanges droppedColumns
  simp only [Journal.bind_ok_iff, Journal.mapM_ok_iff_of_spec spec, Journal.pure_ok_iff]
  constructor
  · rintro ⟨_, ⟨hfits, rfl⟩, rfl⟩
    exact ⟨hfits, rfl⟩
  · rintro ⟨hfits, rfl⟩
    exact ⟨_, ⟨hfits, rfl⟩, rfl⟩

/-! ### Changed schemas -/

/-- The models that are new. -/
def added (desired previous : Schema) : List String :=
  desired.modelNames.filter fun name => !previous.modelNames.contains name

/-- The models that are gone. -/
def removed (desired previous : Schema) : List String :=
  previous.modelNames.filter fun name => !desired.modelNames.contains name

/-- The statements for the table of a model, if it was there before. -/
def kept (d : Dialect) (previous : Schema) (m : Model) : List Statement :=
  match previous.model? m.name with
  | some before => tableChanges d before m
  | none => []

/-- The tables that are dropped, in order. -/
def dropOrder (desired previous : Schema) : List String :=
  let sorted := previous.dependencies.sort (removed desired previous)
  (sorted.1 ++ sorted.2).reverse

/-- Where the defaults of a kept table are looked at, they are ones for their types. -/
def KeptFits (d : Dialect) (previous : Schema) (m : Model) : Prop :=
  ∀ before ∈ previous.model? m.name, ∀ f ∈ m.columns, ReachFits d before f

/-- The statements that lead from one schema to another. -/
def migration (d : Dialect) (desired previous : Schema) : List Statement :=
  (inOrder desired (added desired previous)).map (·.creation d) ++
    desired.models.flatMap (kept d previous) ++ (dropOrder desired previous).map .dropTable

theorem dropOrder_perm (desired previous : Schema) :
    (dropOrder desired previous).Perm (removed desired previous) :=
  (List.reverse_perm _).trans (previous.dependencies.sort_perm _)

theorem mem_added_iff {desired previous : Schema} {name : String} :
    name ∈ added desired previous ↔ name ∈ desired.modelNames ∧ name ∉ previous.modelNames := by
  simp [added]

theorem mem_dropOrder_iff {desired previous : Schema} {name : String} :
    name ∈ dropOrder desired previous ↔
      name ∈ previous.modelNames ∧ name ∉ desired.modelNames := by
  rw [(dropOrder_perm desired previous).mem_iff]
  simp [removed]

/-- **A plan** between schemas is made exactly if every default that it writes fits, and then it is
their migration. -/
theorem diff_ok_iff {d : Dialect} {desired previous : Schema} {stmts : List Statement} :
    (diff d desired previous).outcome = .ok stmts ↔
      ((∀ m ∈ inOrder desired (added desired previous), m.Fits) ∧
        ∀ m ∈ desired.models, KeptFits d previous m) ∧
      stmts = migration d desired previous := by
  have spec : ∀ m ∈ desired.models, ∀ altered : List Statement,
      (match previous.model? m.name with
        | some before => alterTable d before m
        | none => pure [] : Planning (List Statement)).outcome = .ok altered ↔
      KeptFits d previous m ∧ altered = kept d previous m := by
    intro m _ altered
    unfold KeptFits kept
    cases previous.model? m.name with
    | some before => simp [alterTable_ok_iff]
    | none => simp [eq_comm]
  have walk := fun altered => @Journal.mapM_ok_iff_of_spec _ _ _ _ _ _ _ spec altered
  unfold diff migration
  simp only [Journal.bind_ok_iff, createTables_ok_iff, Dependencies.sorted_outcome,
    Journal.pure_ok_iff]
  constructor
  · rintro ⟨_, ⟨hnew, rfl⟩, altered, haltered, _, horder, -, -, rfl⟩
    obtain ⟨hkept, rfl⟩ := (walk altered).mp haltered
    cases horder
    exact ⟨⟨hnew, hkept⟩, rfl⟩
  · rintro ⟨⟨hnew, hkept⟩, rfl⟩
    exact ⟨_, ⟨hnew, rfl⟩, _, (walk _).mpr ⟨hkept, rfl⟩, _, rfl, (), rfl, rfl⟩

end Plan

end Schemata
