import Schemata.Proofs.Catalog.Relations

/-!
# Proofs — catalogs — columns that are there

The columns of the model that is shown of a table.  Its own columns come first; the fields for what
it refers to, and for what folded tables join it to, are no columns, unless a table is called like a
type.  Then the field is taken for a column of that type, which is not there.

* `Snapshot.columns_iff` — the model has the columns of the table just where no relation is taken for
  one (`Snapshot.KeepsRelations`), and then the plans add and drop what they should.
* `Snapshot.shifts_phantom` — a column that was never there is dropped.
-/

namespace Schemata

/-! ### Columns before other fields -/

theorem Field.not_isColumn_iff {f : Field} : ¬ f.isColumn ↔ Scalar.ofName? f.typeName = none := by
  simp [isColumn, scalar?]

section

variable {m : Model} {columns others : List Field} {name : String}

theorem Model.map_name_columns_eq_iff (hfields : m.fields = columns ++ others)
    (hcolumns : ∀ f ∈ columns, f.isColumn) :
    m.columns.map Field.name = columns.map Field.name ↔ ∀ f ∈ others, ¬ f.isColumn := by
  have hself : columns.filter Field.isColumn = columns := List.filter_eq_self.mpr hcolumns
  rw [Model.columns, hfields, List.filter_append, hself, List.map_append,
    List.append_right_eq_self, List.map_eq_nil_iff, List.filter_eq_nil_iff]

/-- The column of a name is among the first fields, if no other one is a column. -/
theorem Plan.columnNamed_append_eq_none_iff (hfields : m.fields = columns ++ others)
    (hcolumns : ∀ f ∈ columns, f.isColumn) (hothers : ∀ f ∈ others, ¬ f.isColumn) :
    columnNamed m name = none ↔ name ∉ columns.map Field.name := by
  unfold columnNamed Model.field?
  rw [hfields, List.find?_append, ← find?_name_eq_none_iff]
  cases hfirst : columns.find? fun f => f.name == name with
  | some f =>
      rw [Option.some_or, Option.filter_some_pos (hcolumns f (List.mem_of_find?_eq_some hfirst))]
  | none =>
      refine iff_of_true (Option.filter_eq_none_iff.mpr fun f hf => ?_) rfl
      exact hothers f (List.mem_of_find?_eq_some hf)

end

namespace Table

variable {t : Table}

/-- A table that joins one table joins it to one other. -/
theorem Joins.eq_of_left {known : List String} {left right right' : String}
    (h : t.Joins known left right) (h' : t.Joins known left right') : right' = right := by
  rcases joins_iff.mp h with h | h <;> rcases joins_iff.mp h' with h' | h'
  · exact (h.unique h').2
  · exact (h.unique h').2.symm ▸ (h.unique h').1
  · exact (h.unique h').1 ▸ (h.unique h').2
  · exact (h.unique h').1

/-- The fields for foreign keys are no columns if no type is called like what they lead to. -/
theorem relationFields_not_isColumn_iff {taken : List String} :
    (∀ f ∈ relationFields taken t.foreignKeys, ¬ f.isColumn) ↔
      ∀ column target, t.LeadsTo column target → target ∉ taken → Scalar.ofName? target = none := by
  simp only [Field.not_isColumn_iff]
  constructor
  · intro h column target hleads hfree
    have hkey : (t.foreignKeys.find? fun key => key.2 == target).isSome :=
      List.find?_isSome.mpr ⟨_, mem_foreignKeys_iff.mpr hleads, beq_self_eq_true target⟩
    obtain ⟨⟨column', target'⟩, hfind⟩ := Option.isSome_iff_exists.mp hkey
    obtain rfl : target' = target := by simpa using List.find?_some hfind
    exact h _ (mem_relationFields_iff.mpr ⟨column', target', hfree, hfind, rfl⟩)
  · intro h f hf
    obtain ⟨column, target, hfree, hfind, rfl⟩ := mem_relationFields_iff.mp hf
    exact h column target (mem_foreignKeys_iff.mp (List.mem_of_find?_eq_some hfind)) hfree

end Table

/-! ### The columns that are shown -/

namespace Snapshot

variable {s : Snapshot} {d : Dialect} {t : Table} {m : Model} {shown : Schema}

/-- No relation of the table is taken for a column: no type is called like a table that it refers
to, unless a column is called so too, and none like a table that a folded table joins it to. -/
structure KeepsRelations (s : Snapshot) (t : Table) : Prop where
  keys : ∀ column target, t.LeadsTo column target → target ∉ t.columns.map Column.name →
    Scalar.ofName? target = none
  joins : ∀ u ∈ s, s.FoldsTable u → ∀ other, u.Joins s.names t.name other →
    Scalar.ofName? other = none

/-- **The fields of a model that is shown**: those of the columns of its table, and others that are
no columns just where the relations of the table are kept. -/
theorem ShowsModel.fields (h : s.ShowsModel d t m) : m.name = t.name ∧
    ∃ columns others, m.fields = columns ++ others ∧ (∀ f ∈ columns, f.isColumn) ∧
      columns.map Field.name = t.columns.map Column.name ∧
      ((∀ f ∈ others, ¬ f.isColumn) ↔ s.KeepsRelations t) := by
  obtain ⟨bare, joins, more, hmodel, -, hjoins, hmore, rfl⟩ := h
  obtain ⟨columns, hcolumns, rfl⟩ := Table.model_ok_iff.mp hmodel
  have hnames := Table.map_name_columnFields hcolumns
  refine ⟨rfl, columns, _, List.append_assoc _ _ _, fun f hf => ?_, hnames, ?_⟩
  · obtain ⟨c, -, hc⟩ := exists_of_forall₂ hcolumns.flip hf
    exact (Table.columnField_ok hc).2
  · rw [List.forall_mem_append, Table.relationFields_not_isColumn_iff, hnames]
    refine ⟨fun ⟨hkeys, hothers⟩ => ⟨hkeys, fun u hu hfolds other hjoin => ?_⟩,
      fun hkeeps => ⟨hkeeps.keys, fun f hf => Field.not_isColumn_iff.mpr ?_⟩⟩
    · have hmem : u ∈ joins :=
        (hjoins u).mpr ⟨hu, hfolds, hjoin.exists_leadsTo_iff.mpr (.inl rfl)⟩
      obtain ⟨f, hf, hjoin', -⟩ := exists_of_forall₂ hmore hmem
      exact hjoin.eq_of_left hjoin' ▸ Field.not_isColumn_iff.mp (hothers f hf)
    · obtain ⟨u, hu, hjoin, -⟩ := exists_of_forall₂ hmore.flip hf
      obtain ⟨hmem, hfolds, -⟩ := (hjoins u).mp hu
      exact hkeeps.joins u hmem hfolds _ hjoin

/-- The model that is shown of a table that is not folded. -/
theorem exists_model?_of_not_foldsTable (hnames : s.names.Nodup)
    (h : (s.schema d).outcome = .ok shown) (ht : t ∈ s) (hkept : ¬ s.FoldsTable t) :
    ∃ m, shown.model? t.name = some m ∧ s.ShowsModel d t m := by
  obtain ⟨kept, -, hmem, hforall⟩ := exists_forall₂_showsModel hnames h
  obtain ⟨m, hm, hshows⟩ := exists_of_forall₂ hforall ((hmem t).mpr ⟨ht, hkept⟩)
  have hdistinct : shown.modelNames.Nodup := hnames.sublist (modelNames_schema_sublist h)
  exact ⟨m, (Schema.model?_eq_some_iff hdistinct).mpr ⟨hm, hshows.fields.1⟩, hshows⟩

/-- **The columns that are shown** of a table that is not folded are its own just where no relation
of the table is taken for one.  Then a plan drops those of them that are wanted no more, and adds
those that are wanted and are none of them. -/
theorem columns_iff (hnames : s.names.Nodup) (h : (s.schema d).outcome = .ok shown) (ht : t ∈ s)
    (hkept : ¬ s.FoldsTable t) :
    ∃ m, shown.model? t.name = some m ∧
      (m.columns.map Field.name = t.columns.map Column.name ↔ s.KeepsRelations t) ∧
      (s.KeepsRelations t → ∀ e desired stmts, (plan e desired (some shown)).outcome = .ok stmts →
        ∀ c, (.dropColumn t.name c ∈ stmts ↔ c ∈ t.columns.map Column.name ∧
            ∃ after ∈ desired.models, after.name = t.name ∧ Plan.columnNamed after c = none) ∧
          ((∃ definition, definition.name = c ∧ .addColumn t.name definition ∈ stmts) ↔
            c ∉ t.columns.map Column.name ∧ ∃ after ∈ desired.models, after.name = t.name ∧
              c ∈ after.columns.map Field.name)) := by
  obtain ⟨m, hm, hshows⟩ := exists_model?_of_not_foldsTable hnames h ht hkept
  obtain ⟨-, columns, others, hfields, hcolumns, hphysical, hothers⟩ := hshows.fields
  refine ⟨m, hm, ?_, fun hkeeps e desired stmts hplan c => ?_⟩
  · rw [← hphysical, Model.map_name_columns_eq_iff hfields hcolumns, hothers]
  · have hnone := hothers.mpr hkeeps
    have hshown : m.columns.map Field.name = t.columns.map Column.name :=
      ((Model.map_name_columns_eq_iff hfields hcolumns).mpr hnone).trans hphysical
    obtain ⟨-, rfl⟩ := Plan.diff_ok_iff.mp hplan
    rw [Plan.dropColumn_mem_migration_iff, Plan.addColumn_mem_migration_iff, hm]
    simp only [Option.some.injEq, exists_eq_left', hshown,
      Plan.columnNamed_append_eq_none_iff hfields hcolumns hnone, hphysical]
    refine ⟨⟨?_, ?_⟩, ?_, ?_⟩
    · rintro ⟨after, hafter, hname, hc, hunwanted⟩
      exact ⟨hc, after, hafter, hname, hunwanted⟩
    · rintro ⟨hc, after, hafter, hname, hunwanted⟩
      exact ⟨after, hafter, hname, hc, hunwanted⟩
    · rintro ⟨after, hafter, hname, hwanted, hc⟩
      exact ⟨hc, after, hafter, hname, hwanted⟩
    · rintro ⟨hc, after, hafter, hname, hwanted⟩
      exact ⟨after, hafter, hname, hwanted, hc⟩

/-- Shifts, each of them on a day. -/
def shiftTable (days : String) : Table :=
  { name := "shift"
    columns :=
      [{ name := "id", dataType := "integer", elementType := "int4", isNullable := false },
       { name := "day", dataType := "integer", elementType := "int4" }]
    constraints :=
      [{ name := "shift_pkey", kind := "PRIMARY KEY", columns := ["id"] },
       { name := "shift_day_fkey", kind := "FOREIGN KEY", columns := ["day"], table := some days
         targets := some ["id"] }] }

/-- Shifts and their days, in a table of the given name. -/
def shifts (days : String) : Snapshot := [Plan.keyTable days, shiftTable days]

/-- The shifts that are wanted. -/
def wantedShifts : Schema :=
  ⟨[{ name := "shift"
      fields :=
        [{ name := "id", typeName := "int", isPrimaryKey := true },
         { name := "day", typeName := "int" }] }]⟩

theorem shiftTable_not_folded {days : String}
    (h : (shifts days).foldedLink? (shiftTable days) = none) :
    ¬ (shifts days).FoldsTable (shiftTable days) := by
  rw [foldsTable_iff_exists_foldedLink, h]
  rintro ⟨l, hl⟩
  cases hl

/-- Days of a calendar are kept apart, and no column of the shifts is dropped. -/
theorem shifts_kept : ∃ shown m stmts, ((shifts "calendar").schema .postgres).outcome = .ok shown ∧
    shown.model? "shift" = some m ∧ m.columns.map Field.name = ["id", "day"] ∧
      (plan .postgres wantedShifts (some shown)).outcome = .ok stmts ∧
      ∀ c, .dropColumn "shift" c ∉ stmts := by
  obtain ⟨shown, hshown, hcolumns, hplan⟩ : ∃ shown,
      ((shifts "calendar").schema .postgres).outcome = .ok shown ∧
        (∀ m, shown.model? "shift" = some m → m.columns.map Field.name = ["id", "day"]) ∧
        ∃ stmts, (plan .postgres wantedShifts (some shown)).outcome = .ok stmts :=
    ⟨_, by with_unfolding_all rfl, fun m hm => by cases hm; with_unfolding_all rfl, _,
      by with_unfolding_all rfl⟩
  obtain ⟨stmts, hplan⟩ := hplan
  obtain ⟨m, hm, hiff, hplans⟩ := columns_iff (by decide) hshown
    (show shiftTable "calendar" ∈ shifts "calendar" from by decide +kernel)
    (shiftTable_not_folded (by decide +kernel))
  refine ⟨shown, m, stmts, hshown, hm, hcolumns m hm, hplan, fun c hdrop => ?_⟩
  obtain ⟨hc, after, hafter, -, hunwanted⟩ :=
    (hplans (hiff.mp (hcolumns m hm)) _ _ _ hplan c).1.mp hdrop
  have hwanted : ∀ c ∈ ["id", "day"], ∀ after ∈ wantedShifts.models,
      Plan.columnNamed after c ≠ none := by decide +kernel
  exact hwanted c hc after hafter hunwanted

/-- **A column that was never there is dropped**: days in a table that is called like a type. -/
theorem shifts_phantom : (shifts "date").names.Nodup ∧ shiftTable "date" ∈ shifts "date" ∧
    ¬ (shifts "date").FoldsTable (shiftTable "date") ∧
    ∃ shown m stmts, ((shifts "date").schema .postgres).outcome = .ok shown ∧
      shown.model? "shift" = some m ∧ m.columns.map Field.name = ["id", "day", "date"] ∧
      (plan .postgres wantedShifts (some shown)).outcome = .ok stmts ∧
      "date" ∉ (shiftTable "date").columns.map Column.name ∧
      .dropColumn "shift" "date" ∈ stmts :=
  ⟨by decide, by decide +kernel, shiftTable_not_folded (by decide +kernel), _, _, _,
    by with_unfolding_all rfl, by with_unfolding_all rfl, by with_unfolding_all rfl,
    by with_unfolding_all rfl, by decide, by decide +kernel⟩

end Snapshot

end Schemata
