import Schemata.Proofs.Database.Alteration

/-!
# Proofs — databases — convergence

A migration leads to what is wanted, but for what it tells of and for one thing that it does not.
The script of a plan runs on the database of the schema that is deployed, and ends in a database
with the tables and the columns of the desired schema.

* `Plan.runAll_migration` — the database in which it ends (`Plan.reached`).
* `Plan.settles_changes` — a kept column ends as the desired field has it in every property, except
  for those of which the changes of that very column tell that they stay, and why.
* `Plan.KeepsDefault` — what is not told of: a default that is equal to the wanted one by value and
  written otherwise stays, unless the column is restated as a whole.
* `Plan.migration_converges` puts this together.
-/

namespace Schemata

/-- The column that a schema has under a name in a table. -/
def Schema.column? (s : Schema) (table column : String) : Option Field :=
  (s.model? table).bind (Plan.columnNamed · column)

/-- A schema in which nothing but integers counts up. -/
def Schema.CountsInts (s : Schema) : Prop := ∀ m ∈ s.models, ∀ f ∈ m.columns, f.CountsInts

namespace Plan

/-! ### New tables and dropped tables -/

/-- What is declared of a model's table says what the model stands for. -/
theorem tableOf_elements {m : Model} {d : Dialect} (hnames : (m.fields.map Field.name).Nodup)
    (hcounts : ∀ f ∈ m.columns, f.CountsInts) : tableOf (m.elements d) = m.state d := by
  funext column
  unfold tableOf Model.state
  rw [Model.columnsOf_elements, columnNamed_eq_find? hnames, List.find?_map, Option.map_map]
  have hsame : ((fun c : ColumnDefinition => c.name == column) ∘ fun f : Field => f.declaration d) =
      fun f : Field => f.name == column := by
    funext f
    simp
  rw [hsame]
  cases hf : m.columns.find? fun f => f.name == column with
  | none => rfl
  | some f =>
      exact congrArg some (Field.declaration_state (hcounts f (List.mem_of_find?_eq_some hf)) d)

/-- A new table has the columns of its model. -/
theorem creation_run {m : Model} {d : Dialect} (hnames : (m.fields.map Field.name).Nodup)
    (hcounts : ∀ f ∈ m.columns, f.CountsInts) {db : Database} (hdb : db m.name = none) :
    runAll [m.creation d] db = some (Function.update db m.name (some (m.state d))) := by
  have hcolumns : ((columnsOf (m.elements d)).map (·.name)).Nodup := by
    rw [Model.columnsOf_elements, List.map_map]
    have hsame : (fun c : ColumnDefinition => c.name) ∘ (fun f : Field => f.declaration d) =
        Field.name := by
      funext f
      exact f.declaration_name d
    rw [hsame]
    exact Model.columns_nodup hnames
  rw [runAll_singleton]
  unfold Model.creation Statement.run
  dsimp only
  rw [if_pos hcolumns, tableOf_elements hnames hcounts]
  exact Store.add_eq hdb _

/-! ### The tables of a migration -/

/-- A table after a migration: as it was settled or as it is new. -/
def reachedTable (d : Dialect) (previous : Schema) (m : Model) : TableState :=
  match previous.model? m.name with
  | some before => settledTable d before m
  | none => m.state d

/-- The database after a migration. -/
def reached (d : Dialect) (desired previous : Schema) : Database := fun table =>
  (desired.model? table).map (reachedTable d previous)

/-- The statements run, and lead from one database to the other. -/
def Leads (stmts : List Statement) (db db' : Database) : Prop := runAll stmts db = some db'

theorem Leads.nil (db : Database) : Leads [] db db := rfl

theorem Leads.append {xs ys : List Statement} {db db' db'' : Database} (h : Leads xs db db')
    (h' : Leads ys db' db'') : Leads (xs ++ ys) db db'' :=
  runAll_append h h'

section

variable {d : Dialect} {desired previous : Schema} {db : Database}

/-- **New tables** are created as their models have them, and the others stay as they were. -/
theorem creations_run {models : List Model} (hnew : (models.map Model.name).Nodup)
    (hnames : ∀ m ∈ models, (m.fields.map Field.name).Nodup)
    (hcounts : ∀ m ∈ models, ∀ f ∈ m.columns, f.CountsInts)
    (hdb : ∀ m ∈ models, db m.name = none) :
    ∃ db', Leads (models.map (·.creation d)) db db' ∧
      (∀ m ∈ models, db' m.name = some (m.state d)) ∧
      ∀ table ∉ models.map Model.name, db' table = db table := by
  rw [List.map_eq_flatMap]
  exact Store.walk Leads.nil Leads.append
    (fun m hm _ h => creation_run (hnames m hm) (hcounts m hm) h) hnew hdb

/-- The models that were there before are altered, and the others left alone. -/
theorem kept_run (hd : desired.Distinct) (hp : previous.Distinct) (hcounts : desired.CountsInts)
    (hdb : ∀ m ∈ desired.models, db m.name = some (((previous.model? m.name).getD m).state d)) :
    ∃ db', Leads (desired.models.flatMap (kept d previous)) db db' ∧
      (∀ m ∈ desired.models, db' m.name = some (reachedTable d previous m)) ∧
      ∀ table ∉ desired.modelNames, db' table = db table := by
  refine Store.walk Leads.nil Leads.append (fun m hm db hdb => ?_) hd.models hdb
  unfold kept reachedTable
  cases hprev : previous.model? m.name with
  | none =>
      rw [hprev, Option.getD_none] at hdb
      dsimp only
      rw [← hdb, Function.update_eq_self]
      exact Leads.nil db
  | some before =>
      rw [hprev, Option.getD_some] at hdb
      obtain ⟨hbefore, -⟩ := Schema.mem_of_model? hprev
      exact tableChanges_run (hp.fields before hbefore) (hd.fields m hm) (hcounts m hm) db hdb

/-- **Dropped tables** are gone, and the others stay as they were. -/
theorem drops_run {tables : List String} (hnames : tables.Nodup)
    (hdb : ∀ table ∈ tables, (db table).isSome) :
    ∃ db', Leads (tables.map .dropTable) db db' ∧ (∀ table ∈ tables, db' table = none) ∧
      ∀ table ∉ tables, db' table = db table := by
  rw [List.map_eq_flatMap]
  have step : ∀ table ∈ tables, ∀ s : Database, s (id table) = db table →
      Leads [.dropTable table] s (Function.update s (id table) none) := fun table htable s hs => by
    obtain ⟨t, ht⟩ := Option.isSome_iff_exists.mp (hdb table htable)
    unfold Leads
    rw [runAll_singleton]
    exact Store.remove_eq (hs.trans ht)
  have hids : (tables.map id).Nodup := by rwa [List.map_id]
  obtain ⟨db', hrun, hnone, hframe⟩ :=
    Store.walk Leads.nil Leads.append step hids (fun _ _ => rfl)
  rw [List.map_id] at hframe
  exact ⟨db', hrun, hnone, hframe⟩

/-! ### A migration -/

theorem state_eq_none {table : String} (h : table ∉ previous.modelNames) :
    previous.state d table = none := by
  unfold Schema.state
  rw [Schema.model?_eq_none_iff.mpr h, Option.map_none]

theorem state_isSome {table : String} (h : table ∈ previous.modelNames) :
    (previous.state d table).isSome := by
  unfold Schema.state
  rw [Option.isSome_map, ← Option.ne_none_iff_isSome, ne_eq, Schema.model?_eq_none_iff, not_not]
  exact h

/-- **A migration** runs, and leads from the database of one schema to the tables of the other. -/
theorem runAll_migration (hd : desired.Distinct) (hp : previous.Distinct)
    (hcounts : desired.CountsInts) :
    runAll (migration d desired previous) (previous.state d) =
      some (reached d desired previous) := by
  have hnew : ∀ m ∈ inOrder desired (added desired previous),
      m ∈ desired.models ∧ m.name ∉ previous.modelNames := fun m hm => by
    obtain ⟨hm, hname⟩ := (mem_inOrder_iff hd.models).mp hm
    exact ⟨hm, (mem_added_iff.mp hname).2⟩
  have hnames : ((inOrder desired (added desired previous)).map Model.name).Perm
      (added desired previous) :=
    map_name_inOrder_perm fun name h => (mem_added_iff.mp h).1
  have hadded : (added desired previous).Nodup := hd.models.filter _
  -- the new tables are created, the kept ones altered, and the others dropped
  obtain ⟨db₁, hrun₁, hcreated, hframe₁⟩ := creations_run (hnames.nodup_iff.mpr hadded)
    (fun m hm => hd.fields m (hnew m hm).1) (fun m hm => hcounts m (hnew m hm).1)
    (fun m hm => state_eq_none (d := d) (hnew m hm).2)
  have hold : ∀ table ∈ previous.modelNames, db₁ table = previous.state d table :=
    fun table h => hframe₁ table fun h' =>
      (mem_added_iff.mp (hnames.mem_iff.mp h')).2 h
  have hthere : ∀ m ∈ desired.models,
      db₁ m.name = some (((previous.model? m.name).getD m).state d) := fun m hm => by
    cases hprev : previous.model? m.name with
    | none =>
        have hnot : m.name ∉ previous.modelNames := Schema.model?_eq_none_iff.mp hprev
        exact hcreated m ((mem_inOrder_iff hd.models).mpr
          ⟨hm, mem_added_iff.mpr ⟨List.mem_map_of_mem hm, hnot⟩⟩)
    | some before =>
        obtain ⟨hbefore, hname⟩ := Schema.mem_of_model? hprev
        rw [hold m.name (hname ▸ List.mem_map_of_mem hbefore), Schema.state, hprev]
        rfl
  obtain ⟨db₂, hrun₂, hkept, hframe₂⟩ := kept_run hd hp hcounts hthere
  have hgone : ∀ table ∈ dropOrder desired previous, (db₂ table).isSome := fun table h => by
    obtain ⟨hprev, hnot⟩ := mem_dropOrder_iff.mp h
    rw [hframe₂ table hnot, hold table hprev]
    exact state_isSome hprev
  have hremoved : (removed desired previous).Nodup := hp.models.filter _
  obtain ⟨db₃, hrun₃, hdropped, hframe₃⟩ :=
    drops_run ((dropOrder_perm desired previous).nodup_iff.mpr hremoved) hgone
  have hend : db₃ = reached d desired previous := by
    funext table
    unfold reached
    by_cases hwanted : table ∈ desired.modelNames
    · obtain ⟨m, hm, rfl⟩ := List.mem_map.mp hwanted
      have hstays : m.name ∉ dropOrder desired previous := fun h =>
        (mem_dropOrder_iff.mp h).2 hwanted
      rw [hframe₃ _ hstays, hkept m hm, (Schema.model?_eq_some_iff hd.models).mpr ⟨hm, rfl⟩,
        Option.map_some]
    · -- what is not wanted was dropped, or was never there
      rw [Schema.model?_eq_none_iff.mpr hwanted, Option.map_none]
      by_cases hprev : table ∈ previous.modelNames
      · exact hdropped table (mem_dropOrder_iff.mpr ⟨hprev, hwanted⟩)
      · have hcreated : table ∉ (inOrder desired (added desired previous)).map Model.name :=
          fun h => hwanted (mem_added_iff.mp (hnames.mem_iff.mp h)).1
        have hstays : table ∉ dropOrder desired previous := fun h =>
          hprev (mem_dropOrder_iff.mp h).1
        rw [hframe₃ _ hstays, hframe₂ _ hwanted, hframe₁ _ hcreated, state_eq_none hprev]
  exact hend ▸ (hrun₁.append hrun₂).append hrun₃

end

/-! ### What stays of a kept column -/

/-- A remark tells that a property of the column stays because it cannot be altered in place. -/
def TellsUnaltered (stmts : List Statement) (table column : String) (a : Aspect) : Prop :=
  ∃ aspects, a ∈ aspects ∧ .warning (.unalterable aspects table column) ∈ stmts

/-- The changes of a column tell that its default stays, as it cannot be altered in place or counts
up on either side. -/
def TellsDefault (d : Dialect) (table : String) (old new : Field) (own : List Statement) : Prop :=
  d = .sqlite ∧ TellsUnaltered own table new.name .default ∨
    (old.isAutoincrement ∨ new.isAutoincrement) ∧ .warning (.autoincrementChange new.name) ∈ own

/-- A default that stays and is not told of.  It is equal to the wanted one by value, so it does
not count as changed; yet the two are written differently, and nothing restates the column. -/
@[mk_iff]
structure KeepsDefault (d : Dialect) (old new : Field) : Prop where
  same : Default.sameOption old.default new.default = true
  differs : old.storedDefault d ≠ new.storedDefault d
  unrestated : restates d old new = false

/-- What the changes `own` of a kept column make of it, and leave.  A property is as the new field
has it, or is as it was for a reason of its own of which these changes tell.  For a default this is
so exactly if it is not kept unawares. -/
structure Settles (d : Dialect) (table : String) (old new : Field) (own : List Statement)
    (c : ColumnState) : Prop where
  type : c.type = new.storedType d ∨
    c.type = old.storedType d ∧ d = .sqlite ∧ TellsUnaltered own table new.name .type
  isNotNull : c.isNotNull = new.isNotNull ∨
    c.isNotNull = old.isNotNull ∧
      (d = .sqlite ∧ TellsUnaltered own table new.name .nullability ∨
        weakensKey old new ∧ .warning (.keyMayNotBeNull new.name) ∈ own)
  isUnique : c.isUnique = new.hasUniqueConstraint ∨
    c.isUnique = true ∧ old.hasUniqueConstraint ∧ .warning (.uniqueRemoval new.name) ∈ own
  default : (c.default = new.storedDefault d ∨
    c.default = old.storedDefault d ∧ TellsDefault d table old new own) ↔ ¬ KeepsDefault d old new

section

variable {d : Dialect} {table : String} {old new : Field}

/-- The properties of a column that are told of as unalterable are those that are. -/
theorem tellsUnaltered_changes_iff {a : Aspect} :
    TellsUnaltered (changes d table old new) table new.name a ↔
      d = .sqlite ∧ a ∈ unalterable d old new := by
  unfold TellsUnaltered
  simp only [warning_mem_changes_iff, Warning.unalterable.injEq, and_true, reduceCtorEq, and_false,
    false_or, or_false]
  constructor
  · rintro ⟨_, ha, ⟨hd, -⟩, rfl⟩
    exact ⟨hd, ha⟩
  · rintro ⟨hd, ha⟩
    exact ⟨_, ha, ⟨hd, List.ne_nil_of_mem ha⟩, rfl⟩

/-- The changes of a column tell that its default stays if it differs by value, and can neither be
altered in place nor set where something counts up. -/
theorem tellsDefault_changes_iff :
    TellsDefault d table old new (changes d table old new) ↔
      Default.sameOption old.default new.default = false ∧
        (d = .sqlite ∨ old.isAutoincrement ∨ new.isAutoincrement) := by
  have hdefault : .default ∈ unalterable d old new ↔
      Default.sameOption old.default new.default = false := by simp [unalterable]
  unfold TellsDefault
  rw [tellsUnaltered_changes_iff, warning_mem_changes_iff, hdefault]
  simp only [reduceCtorEq, and_false, false_or, or_false, and_true]
  tauto

/-- A default ends as the wanted one, or is told of, unless it is kept unawares. -/
theorem settled_default_iff :
    ((settled d old new).default = new.storedDefault d ∨
      (settled d old new).default = old.storedDefault d ∧
        TellsDefault d table old new (changes d table old new)) ↔ ¬ KeepsDefault d old new := by
  rw [tellsDefault_changes_iff, keepsDefault_iff]
  by_cases hd : d = .sqlite
  · subst hd
    have hr : restates .sqlite old new = false := rfl
    cases h : Default.sameOption old.default new.default <;> simp [settled, hr]
  · cases hr : restates d old new with
    | true => simp [settled, hd, hr]
    | false =>
        cases h : Default.sameOption old.default new.default with
        | true => simp [settled, hd, hr, setsDefault, h]
        | false =>
          cases ho : old.isAutoincrement <;> cases hn : new.isAutoincrement <;>
            simp [settled, hd, hr, setsDefault, h, ho, hn]

/-- **What the changes of a kept column leave** is told of by them, but for a default that is kept
unawares. -/
theorem settles_changes :
    Settles d table old new (changes d table old new) (settled d old new) where
  type := by
    by_cases hd : d = .sqlite
    · subst hd
      by_cases h : old.storedType .sqlite = new.storedType .sqlite
      · exact .inl h
      · exact .inr ⟨rfl, rfl, tellsUnaltered_changes_iff.mpr ⟨rfl, by simp [unalterable, h]⟩⟩
    · exact .inl (by simp [settled, hd])
  isNotNull := by
    by_cases hd : d = .sqlite
    · subst hd
      by_cases h : old.isNotNull = new.isNotNull
      · exact .inl h
      · refine .inr ⟨rfl, ?_⟩
        cases hw : weakensKey old new with
        | true => exact .inr ⟨rfl, warning_mem_changes_iff.mpr (.inl ⟨hw, rfl⟩)⟩
        | false =>
            exact .inl ⟨rfl, tellsUnaltered_changes_iff.mpr ⟨rfl, by simp [unalterable, h, hw]⟩⟩
    · cases hw : weakensKey old new && !restates d old new with
      | true =>
          obtain ⟨hkey, -⟩ := Bool.and_eq_true_iff.mp hw
          exact .inr ⟨by simp [settled, hw],
            .inr ⟨hkey, warning_mem_changes_iff.mpr (.inl ⟨hkey, rfl⟩)⟩⟩
      | false => exact .inl (by simp [settled, hd, hw])
  isUnique := by
    cases ho : old.hasUniqueConstraint <;> cases hn : new.hasUniqueConstraint
    case true.false =>
      have htold : .warning (.uniqueRemoval new.name) ∈ changes d table old new :=
        warning_mem_changes_iff.mpr (.inr (.inr (.inr ⟨⟨ho, hn⟩, rfl⟩)))
      exact .inr ⟨by simp [settled, ho], rfl, htold⟩
    all_goals exact .inl (by simp [settled, ho, hn])
  default := settled_default_iff

end

/-! ### What a migration reaches -/

/-- The database has the tables and the columns of the desired schema and no others.  A column that
is new is as its field has it.  One that was there ends as the statements of its own change make it
(`settled`), a part of those that are run. -/
structure Realizes (d : Dialect) (desired previous : Schema) (stmts : List Statement)
    (db : Database) : Prop where
  tables : ∀ table, (db table).isSome ↔ table ∈ desired.modelNames
  columns : ∀ m ∈ desired.models, ∀ t ∈ db m.name, ∀ column,
    (t column).isSome ↔ column ∈ m.columns.map Field.name
  added : ∀ m ∈ desired.models, ∀ t ∈ db m.name, ∀ f ∈ m.columns,
    previous.column? m.name f.name = none → t f.name = some (f.state d)
  kept : ∀ m ∈ desired.models, ∀ t ∈ db m.name, ∀ f ∈ m.columns,
    ∀ old ∈ previous.column? m.name f.name, ∃ own,
      (alterColumn d m.name old f).outcome = .ok own ∧ own <:+: stmts ∧
        t f.name = some (settled d old f) ∧ Settles d m.name old f own (settled d old f)

section

variable {d : Dialect} {desired previous : Schema} {m : Model} {f old : Field}

/-- The changes of a kept column stand together in the migration. -/
theorem changes_infix_migration (hm : m ∈ desired.models) (hf : f ∈ m.columns)
    (hold : previous.column? m.name f.name = some old) :
    changes d m.name old f <:+: migration d desired previous := by
  obtain ⟨before, hprev, hcolumn⟩ := Option.bind_eq_some_iff.mp hold
  have hreach : reach d before m f = changes d m.name old f := by rw [reach, hcolumn]
  have hkept : kept d previous m = tableChanges d before m := by rw [kept, hprev]
  have hown : changes d m.name old f <:+: tableChanges d before m := by
    rw [← hreach, tableChanges, List.flatMap_def]
    exact (List.infix_of_mem_flatten (List.mem_map_of_mem hf)).trans
      (List.prefix_append ..).isInfix
  have htable : kept d previous m <:+: desired.models.flatMap (kept d previous) := by
    rw [List.flatMap_def]
    exact List.infix_of_mem_flatten (List.mem_map_of_mem hm)
  exact (hown.trans (hkept ▸ htable)).trans (List.infix_append ..)

/-- A kept column is altered as its changes say, wherever the whole is planned. -/
theorem alterColumn_outcome_of_plan (hm : m ∈ desired.models) (hf : f ∈ m.columns)
    (hold : previous.column? m.name f.name = some old)
    (hkept : ∀ m ∈ desired.models, KeptFits d previous m) :
    (alterColumn d m.name old f).outcome = .ok (changes d m.name old f) := by
  obtain ⟨before, hprev, hcolumn⟩ := Option.bind_eq_some_iff.mp hold
  have hfits : ReachFits d before f := hkept m hm before hprev f hf
  rw [ReachFits, hcolumn] at hfits
  exact (alterColumn_ok_iff (isColumn_of_columnNamed hcolumn)
    (Model.isColumn_of_mem_columns hf)).mpr ⟨hfits, rfl⟩

/-- A wanted column after a migration: as it is new, or as it was settled. -/
theorem reachedTable_column (hd : desired.Distinct) (hm : m ∈ desired.models) (hf : f ∈ m.columns) :
    reachedTable d previous m f.name =
      some ((previous.column? m.name f.name).elim (f.state d) (settled d · f)) := by
  have hcolumn : columnNamed m f.name = some f :=
    (columnNamed_eq_some_iff (hd.fields m hm)).mpr ⟨hf, rfl⟩
  unfold reachedTable Schema.column?
  cases previous.model? m.name with
  | none => simp only [Model.state, hcolumn, Option.map_some, Option.bind_none, Option.elim_none]
  | some before =>
      simp only [settledTable, hcolumn, Option.bind_some, Option.map_some]
      cases columnNamed before f.name <;> rfl

theorem reachedTable_isSome_iff (hd : desired.Distinct) (hm : m ∈ desired.models)
    {column : String} :
    (reachedTable d previous m column).isSome ↔ column ∈ m.columns.map Field.name := by
  have hcolumn : (columnNamed m column).isSome ↔ column ∈ m.columns.map Field.name := by
    rw [← Option.ne_none_iff_isSome, ne_eq, columnNamed_eq_none_iff (hd.fields m hm), not_not]
  unfold reachedTable
  cases previous.model? m.name with
  | some before => simp only [settledTable, Option.isSome_map, hcolumn]
  | none => simp only [Model.state, Option.isSome_map, hcolumn]

/-- **What a migration reaches**, where it is planned. -/
theorem reached_realizes (hd : desired.Distinct)
    (hkept : ∀ m ∈ desired.models, KeptFits d previous m) :
    Realizes d desired previous (migration d desired previous) (reached d desired previous) := by
  have hreached : ∀ m ∈ desired.models, ∀ t ∈ reached d desired previous m.name,
      t = reachedTable d previous m := fun m hm t ht => by
    rw [Option.mem_def, reached, (Schema.model?_eq_some_iff hd.models).mpr ⟨hm, rfl⟩,
      Option.map_some, Option.some.injEq] at ht
    exact ht.symm
  refine ⟨fun table => ?_, fun m hm t ht column => ?_, fun m hm t ht f hf hnew => ?_,
    fun m hm t ht f hf old hold => ?_⟩
  · rw [reached, Option.isSome_map, ← Option.ne_none_iff_isSome, ne_eq, Schema.model?_eq_none_iff,
      not_not]
  · obtain rfl := hreached m hm t ht
    exact reachedTable_isSome_iff hd hm
  · obtain rfl := hreached m hm t ht
    rw [reachedTable_column hd hm hf, hnew, Option.elim_none]
  · obtain rfl := hreached m hm t ht
    refine ⟨_, alterColumn_outcome_of_plan hm hf hold hkept, changes_infix_migration hm hf hold,
      ?_, settles_changes⟩
    rw [reachedTable_column hd hm hf, hold, Option.elim_some]

end

/-- **Convergence.**  What is executed of a script runs on the database of the deployed schema, and
leads to the tables and the columns of the desired one.  A new column is as its field has it.  A
kept one is so in every property, or the changes of that column tell that the property stays and
why; the one exception, exactly, is a default that differs from the wanted one only in how it is
written (`KeepsDefault`). -/
theorem migration_converges {style : Style} {desired previous : Schema} (hd : desired.Distinct)
    (hp : previous.Distinct) (hcounts : desired.CountsInts) {stmts : List Statement}
    (hplan : (plan style.dialect desired (some previous)).outcome = .ok stmts) :
    (Script.ofStatements style stmts).executable =
        (stmts.filter fun st => !st.isWarning).map (·.render style) ∧
      runAll (stmts.filter fun st => !st.isWarning) (previous.state style.dialect) =
        some (reached style.dialect desired previous) ∧
      Realizes style.dialect desired previous stmts (reached style.dialect desired previous) := by
  obtain ⟨⟨-, hkept⟩, rfl⟩ := diff_ok_iff.mp hplan
  refine ⟨Script.executable_ofStatements style _, ?_, reached_realizes hd hkept⟩
  rw [runAll_executable]
  exact runAll_migration hd hp hcounts

/-- Users with a key that counts up, and with a unique age. -/
def usersByAge : Schema :=
  ⟨[{ name := "user"
      fields :=
        [{ name := "id", typeName := "int", isPrimaryKey := true
           default := some (.call .autoincrement) },
         { name := "age", typeName := "int", isUnique := true }] }]⟩

/-- The same users with their posts, and with an age that is a text. -/
def usersWithPosts : Schema :=
  ⟨[{ name := "post", fields := [{ name := "id", typeName := "int", isPrimaryKey := true }] },
    { name := "user"
      fields :=
        [{ name := "id", typeName := "int", isPrimaryKey := true
           default := some (.call .autoincrement) },
         { name := "age", typeName := "string", isRequired := true
           default := some (.literal (.text "old")) }] }]⟩

/-- **Users by age** become users with posts: the run ends in what is reached. -/
theorem usersByAge_converges : ∃ stmts,
    (plan .postgres usersWithPosts (some usersByAge)).outcome = .ok stmts ∧
      runAll (stmts.filter fun st => !st.isWarning) (usersByAge.state .postgres) =
        some (reached .postgres usersWithPosts usersByAge) ∧
      Realizes .postgres usersWithPosts usersByAge stmts
        (reached .postgres usersWithPosts usersByAge) := by
  have hplan : (plan .postgres usersWithPosts (some usersByAge)).outcome =
      .ok (migration .postgres usersWithPosts usersByAge) := by
    with_unfolding_all rfl
  obtain ⟨-, hrun, hend⟩ := @migration_converges ⟨.postgres, true⟩ _ _
    ⟨by decide, by decide⟩ ⟨by decide, by decide⟩
    (by unfold Schema.CountsInts Field.CountsInts; decide) _ hplan
  exact ⟨_, hplan, hrun, hend⟩

/-- A table of one flag. -/
def flagged (typeName : String) (default : Literal) : Schema :=
  ⟨[{ name := "t"
      fields := [{ name := "flag", typeName, default := some (.literal default) }] }]⟩

/-- A flag that was on and is wanted as the number one becomes a number, and its default stays
what it was, a truth value; no remark tells of it. -/
theorem flagged_keepsDefault :
    (planScript ⟨.postgres, false⟩ (flagged "int" (.int 1))
        (some (flagged "boolean" (.bool true)))).outcome =
      .ok ⟨["ALTER TABLE t ALTER COLUMN flag TYPE INTEGER;"]⟩ ∧
    (plan .postgres (flagged "int" (.int 1)) (some (flagged "boolean" (.bool true)))).outcome =
      .ok [.setType "t" "flag" "INTEGER" false] ∧
    ∃ db, runAll [.setType "t" "flag" "INTEGER" false]
        ((flagged "boolean" (.bool true)).state .postgres) = some db ∧
      (db "t").bind (· "flag") = some ⟨"INTEGER", false, some (.verbatim "true"), false⟩ ∧
      ((flagged "int" (.int 1)).state .postgres "t").bind (· "flag") =
        some ⟨"INTEGER", false, some (.verbatim "1"), false⟩ :=
  ⟨by with_unfolding_all rfl, by with_unfolding_all rfl, _, rfl, rfl, rfl⟩

end Plan

end Schemata
