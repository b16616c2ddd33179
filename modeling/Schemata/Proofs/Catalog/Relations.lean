import Schemata.Proofs.Catalog.ShownModels
import Schemata.Proofs.Plan.References

/-!
# Proofs — catalogs — foreign keys that are shown

What is left of the foreign keys of a database in the schema that it shows.  A foreign key becomes a
field that is named for the table it refers to, unless the name is taken, and only a field that is
no column counts among the dependencies of a schema.  So a table's foreign keys to another one are
shown (`Table.Shows`) just where no column is called like that table, and no type is.

* `Table.exists_holdsKey_iff` — the model of a table has the foreign keys that the table shows.
* `Snapshot.dependsOn_iff` — and these are the dependencies of the schema.
-/

namespace Schemata

/-! ### The fields that are added -/

namespace Table

/-- The fields for foreign keys: one for each table that is referred to, by the first of its keys,
unless its name is taken. -/
theorem mem_relationFields_iff {taken : List String} {keys : List (String × String)} {f : Field} :
    f ∈ relationFields taken keys ↔ ∃ column target, target ∉ taken ∧
      keys.find? (fun key => key.2 == target) = some (column, target) ∧
      f = { name := target, typeName := target
            relation := some ⟨.manyToOne, some column⟩ } := by
  induction keys generalizing taken with
  | nil => simp [relationFields]
  | cons key keys ih =>
      obtain ⟨column, target⟩ := key
      unfold relationFields
      split
      next htaken =>
          rw [ih]
          refine exists_congr fun column' => exists_congr fun target' =>
            and_congr_right fun hnew => ?_
          have hne : (target == target') = false := beq_eq_false_iff_ne.mpr fun h =>
            hnew (h ▸ List.contains_iff_mem.mp htaken)
          rw [List.find?_cons, hne]
      next hfree =>
          have hnew : target ∉ taken := fun h => hfree (List.contains_iff_mem.mpr h)
          rw [List.mem_cons, ih]
          constructor
          · rintro (rfl | ⟨column', target', hnot, hfind, rfl⟩)
            · exact ⟨column, target, hnew, by simp, rfl⟩
            · rw [List.mem_cons, not_or] at hnot
              have hne : (target == target') = false := beq_eq_false_iff_ne.mpr (Ne.symm hnot.1)
              exact ⟨column', target', hnot.2, by rw [List.find?_cons, hne]; exact hfind, rfl⟩
          · rintro ⟨column', target', hnot, hfind, rfl⟩
            by_cases htarget : target = target'
            · subst htarget
              simp only [List.find?_cons, beq_self_eq_true, Option.some.injEq, Prod.mk.injEq,
                and_true] at hfind
              exact .inl (by rw [hfind])
            · have hne : (target == target') = false := beq_eq_false_iff_ne.mpr htarget
              rw [List.find?_cons, hne] at hfind
              exact .inr ⟨column', target', by simp [hnot, Ne.symm htarget], hfind, rfl⟩

/-- The field of a column is a column of its name. -/
theorem columnField_ok {t : Table} {d : Dialect} {c : Column} {f : Field}
    (h : t.columnField d c = .ok f) : f.name = c.name ∧ f.isColumn := by
  unfold columnField at h
  generalize (if d = .mysql then mysqlScalar c.dataType c.fullType
    else postgresScalar c.dataType c.elementType) = kind at h
  dsimp only at h
  split at h <;> obtain ⟨default, -, h⟩ := Except.bind_eq_ok_iff.mp h <;> cases h <;>
    exact ⟨rfl, Field.isColumn_iff.mpr ⟨_, Scalar.ofName?_name _⟩⟩

/-- The fields of the columns have their names. -/
theorem map_name_columnFields {t : Table} {d : Dialect} {fields : List Field}
    (h : List.Forall₂ (fun c f => t.columnField d c = .ok f) t.columns fields) :
    fields.map Field.name = t.columns.map Column.name :=
  (map_eq_of_forall₂ (h.imp fun _ _ hf => (columnField_ok hf).1.symm)).symm

theorem typeName_of_mem_relationFields {taken : List String} {keys : List (String × String)}
    {f : Field} (h : f ∈ relationFields taken keys) : f.typeName ∈ keys.map Prod.snd := by
  obtain ⟨column, target, -, hfind, rfl⟩ := mem_relationFields_iff.mp h
  exact List.mem_map_of_mem (f := Prod.snd) (List.mem_of_find?_eq_some hfind)

end Table

/-! ### Foreign keys -/

theorem Field.foreignKeyTarget?_of_isColumn {f : Field} (h : f.isColumn) :
    f.foreignKeyTarget? = none := by
  unfold foreignKeyTarget?
  split
  · rfl
  · simp [h]

/-- What stands for a folded table holds no key. -/
theorem Field.StandsFor.foreignKeyTarget? {f : Field} {table : String} (h : f.StandsFor table) :
    f.foreignKeyTarget? = none := by
  rw [h]
  rfl

namespace Table

/-- The table shows its foreign keys to the target: neither a column nor a type is called like it.
Of several keys the first one stands for all; its column has a name. -/
structure Shows (t : Table) (target : String) : Prop where
  key : ∃ column, t.foreignKeys.find? (fun key => key.2 == target) = some (column, target) ∧
    column ≠ ""
  noColumn : target ∉ t.columns.map Column.name
  noType : Scalar.ofName? target = none

theorem Shows.refers {t : Table} {target : String} (h : t.Shows target) :
    ∃ column, t.Refers column target := by
  obtain ⟨column, hfind, -⟩ := h.key
  exact ⟨column, refers_of_mem_foreignKeys (List.mem_of_find?_eq_some hfind)⟩

/-- A field that stands for a foreign key holds it, if the column has a name and the field is no
column. -/
theorem foreignKeyTarget?_relationField {column table target : String} :
    ({ name := table, typeName := table
       relation := some ⟨.manyToOne, some column⟩ } : Field).foreignKeyTarget? = some target ↔
      table = target ∧ column ≠ "" ∧ Scalar.ofName? table = none := by
  simp [Field.foreignKeyTarget?, RelationKind.holdsKey, Relation.key?, Option.filter,
    Field.isColumn, Field.scalar?]
  tauto

/-- **The foreign keys of the model of a table** are those that the table shows. -/
theorem exists_holdsKey_iff {t : Table} {d : Dialect} {m : Model} (h : t.model d = .ok m)
    {target : String} : (∃ key, m.HoldsKey key target) ↔ t.Shows target := by
  obtain ⟨fields, hfields, rfl⟩ := model_ok_iff.mp h
  have hnames : fields.map Field.name = t.columns.map Column.name := map_name_columnFields hfields
  unfold Model.HoldsKey
  constructor
  · rintro ⟨key, f, hf, htarget, hkey⟩
    rcases List.mem_append.mp hf with hf | hf
    · obtain ⟨c, -, hc⟩ := exists_of_forall₂ hfields.flip hf
      rw [Field.foreignKeyTarget?_of_isColumn (columnField_ok hc).2] at htarget
      cases htarget
    · obtain ⟨column, table, hfree, hfind, rfl⟩ := mem_relationFields_iff.mp hf
      obtain ⟨rfl, hcolumn, htype⟩ := foreignKeyTarget?_relationField.mp htarget
      exact ⟨⟨column, hfind, hcolumn⟩, hnames ▸ hfree, htype⟩
  · rintro ⟨⟨column, hfind, hcolumn⟩, hfree, htype⟩
    refine ⟨column, _, List.mem_append_right _ (mem_relationFields_iff.mpr
      ⟨column, target, hnames ▸ hfree, hfind, rfl⟩),
      foreignKeyTarget?_relationField.mpr ⟨rfl, hcolumn, htype⟩, ?_⟩
    simp [Relation.key?, hcolumn]

end Table

namespace Snapshot

variable {s : Snapshot} {d : Dialect} {shown : Schema}

/-- No link gives a model a foreign key. -/
theorem holdsKey_withLinks_iff {m : Model} {key target : String} :
    (s.withLinks m).HoldsKey key target ↔ m.HoldsKey key target := by
  obtain ⟨more, hmore, hrest⟩ := s.withLinks_eq m
  unfold Model.HoldsKey
  rw [hmore]
  constructor
  · rintro ⟨f, hf, htarget, hkey⟩
    rcases List.mem_append.mp hf with hf | hf
    · exact ⟨f, hf, htarget, hkey⟩
    · obtain ⟨t, -, -, hstands⟩ := exists_of_forall₂ hrest.flip hf
      rw [hstands.foreignKeyTarget?] at htarget
      cases htarget
  · rintro ⟨f, hf, htarget, hkey⟩
    exact ⟨f, List.mem_append_left _ hf, htarget, hkey⟩

/-- A model of the schema is that of a table which is not folded, with the fields for its links. -/
theorem mem_models_schema_iff (h : (s.schema d).outcome = .ok shown) {m : Model} :
    m ∈ shown.models ↔ ∃ t ∈ s, ¬ s.Folds t.name ∧ ∃ bare, t.model d = .ok bare ∧
      m = s.withLinks bare := by
  obtain ⟨models, hmodels, rfl⟩ := schema_ok_iff.mp h
  have hforall := Except.mapM_ok_iff.mp hmodels
  have hkept : ∀ m ∈ models, m ∈ models.filter (fun m =>
      !(s.foldedLinks.map Link.table).contains m.name) ↔ ¬ s.Folds m.name := fun m hm => by
    rw [List.mem_filter, and_iff_right hm, not_contains_foldedTables_iff]
  rw [List.mem_map]
  constructor
  · rintro ⟨bare, hmem, rfl⟩
    have hbare := (List.mem_filter.mp hmem).1
    obtain ⟨t, ht, hmodel⟩ := exists_of_forall₂ hforall.flip hbare
    exact ⟨t, ht, Table.name_of_model hmodel ▸ (hkept bare hbare).mp hmem, bare, hmodel, rfl⟩
  · rintro ⟨t, ht, hfolds, bare, hmodel, rfl⟩
    obtain ⟨bare', hbare, hmodel'⟩ := exists_of_forall₂ hforall ht
    cases hmodel.symm.trans hmodel'
    exact ⟨bare, (hkept bare hbare).mpr (Table.name_of_model hmodel ▸ hfolds), rfl⟩

/-- **The dependencies of the schema** are the foreign keys that its tables show. -/
theorem dependsOn_iff (h : (s.schema d).outcome = .ok shown) {table target : String} :
    shown.dependencies.DependsOn table target ↔ target ≠ table ∧ table ∈ shown.modelNames ∧
      target ∈ shown.modelNames ∧ ∃ t ∈ s, t.name = table ∧ t.Shows target := by
  rw [Schema.dependsOn_iff, and_left_comm (a := table ∈ shown.modelNames)]
  refine and_congr_right fun _ => and_congr_right fun _ => ?_
  constructor
  · rintro ⟨m, hm, rfl, key, hkey⟩
    obtain ⟨t, ht, -, bare, hmodel, rfl⟩ := (mem_models_schema_iff h).mp hm
    refine ⟨List.mem_map_of_mem hm, t, ht, ?_, (Table.exists_holdsKey_iff hmodel).mp
      ⟨key, holdsKey_withLinks_iff.mp hkey⟩⟩
    rw [withLinks_name, Table.name_of_model hmodel]
  · rintro ⟨htable, t, ht, rfl, hshows⟩
    have hkept := ((mem_modelNames_schema_iff h).mp htable).2
    obtain ⟨models, hmodels, -⟩ := schema_ok_iff.mp h
    obtain ⟨bare, -, hmodel⟩ := exists_of_forall₂ (Except.mapM_ok_iff.mp hmodels) ht
    obtain ⟨key, hkey⟩ := (Table.exists_holdsKey_iff hmodel).mpr hshows
    refine ⟨_, (mem_models_schema_iff h).mpr ⟨t, ht, hkept, bare, hmodel, rfl⟩, ?_, key,
      holdsKey_withLinks_iff.mpr hkey⟩
    rw [withLinks_name, Table.name_of_model hmodel]

end Snapshot

end Schemata
