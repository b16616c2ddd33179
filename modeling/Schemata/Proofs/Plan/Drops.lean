import Schemata.Proofs.Catalog.Folding
import Schemata.Proofs.Plan.Statements

/-!
# Proofs — what a migration creates and drops

A migration creates the tables of the models that are new and drops those of the models that are
gone; everything between only alters tables (`Plan.isAlteration_of_mem_kept`).  So it is decided
by names alone what is dropped (`Plan.dropTable_mem_migration_iff`), and by names alone what is
created (`Plan.createTable_mem_migration_iff`).  Of a table that is kept, it is decided by the names
of its columns which of them are added (`Plan.addColumn_mem_migration_iff`) and which are dropped
(`Plan.dropColumn_mem_migration_iff`).

No table of a wanted model is dropped.  A join table that is wanted is no model, and is dropped
where what is deployed shows it as one: where the snapshot has a table of its name that is not
folded (`Plan.dropTable_joinTable_iff`).
-/

namespace Schemata

/-- A statement that neither creates a table nor drops one. -/
def Statement.isAlteration : Statement → Bool
  | .createTable _ _ => false
  | .dropTable _ => false
  | _ => true

namespace Plan

section

variable {d : Dialect} {table : String} {old new : Field} {before after m : Model}
  {desired previous : Schema}

theorem Change.isAlteration {st : Statement} (h : Change d table old new st) : st.isAlteration := by
  cases h <;> rfl

/-- A kept table is altered, and nothing else. -/
theorem isAlteration_of_mem_kept : ∀ st ∈ kept d previous m, st.isAlteration := by
  unfold kept
  cases previous.model? m.name with
  | none => simp
  | some before =>
      simp only [tableChanges, List.forall_mem_append, List.mem_flatMap, List.forall_mem_map]
      refine ⟨?_, fun _ _ => rfl⟩
      rintro st ⟨f, -, hst⟩
      unfold reach at hst
      split at hst
      · exact (change_of_mem hst).isAlteration
      · rw [List.mem_singleton.mp hst]
        rfl

theorem not_mem_flatMap_kept {st : Statement} (h : st.isAlteration = false) :
    st ∉ desired.models.flatMap (kept d previous) := fun hst => by
  obtain ⟨m, -, hst⟩ := List.mem_flatMap.mp hst
  rw [isAlteration_of_mem_kept st hst] at h
  cases h

/-- **What is dropped**: the tables of the models that are gone. -/
theorem dropTable_mem_migration_iff :
    .dropTable table ∈ migration d desired previous ↔
      table ∈ previous.modelNames ∧ table ∉ desired.modelNames := by
  -- neither a new table nor a kept one is dropped, so the last part decides
  unfold migration
  rw [List.mem_append, List.mem_append, ← mem_dropOrder_iff]
  constructor
  · rintro ((h | h) | h)
    · obtain ⟨m, -, hm⟩ := List.mem_map.mp h
      cases hm
    · exact absurd h (not_mem_flatMap_kept rfl)
    · obtain ⟨name, hname, heq⟩ := List.mem_map.mp h
      cases heq
      exact hname
  · exact fun h => .inr (List.mem_map_of_mem h)

/-- **What is created**: the tables of the models that are new. -/
theorem createTable_mem_migration_iff :
    (∃ elements, .createTable table elements ∈ migration d desired previous) ↔
      table ∈ desired.modelNames ∧ table ∉ previous.modelNames := by
  have hnames : ((inOrder desired (added desired previous)).map Model.name).Perm
      (added desired previous) := map_name_inOrder_perm fun name h => (mem_added_iff.mp h).1
  rw [← mem_added_iff, ← hnames.mem_iff, List.mem_map]
  unfold migration
  constructor
  · rintro ⟨elements, h⟩
    rcases List.mem_append.mp h with h | h
    · rcases List.mem_append.mp h with h | h
      · obtain ⟨m, hm, heq⟩ := List.mem_map.mp h
        cases heq
        exact ⟨m, hm, rfl⟩
      · exact absurd h (not_mem_flatMap_kept rfl)
    · obtain ⟨name, -, heq⟩ := List.mem_map.mp h
      cases heq
  · rintro ⟨m, hm, rfl⟩
    exact ⟨m.elements d, List.mem_append_left _ (List.mem_append_left _
      (List.mem_map.mpr ⟨m, hm, rfl⟩))⟩

/-- A kept column is neither added nor dropped. -/
theorem Change.keepsColumns {st : Statement} (h : Change d table old new st) :
    (∀ name c, st ≠ .addColumn name c) ∧ ∀ name c, st ≠ .dropColumn name c := by
  cases h <;> exact ⟨nofun, nofun⟩

theorem mem_tableChanges_iff {st : Statement} : st ∈ tableChanges d before after ↔
    (∃ f ∈ after.columns, st ∈ reach d before after f) ∨
      ∃ f ∈ droppedColumns before after, .dropColumn after.name f.name = st := by
  rw [tableChanges, List.mem_append, List.mem_flatMap, List.mem_map]

theorem addColumn_mem_reach_iff {f : Field} {c : ColumnDefinition} :
    .addColumn table c ∈ reach d before after f ↔
      after.name = table ∧ columnNamed before f.name = none ∧ c = f.declaration d := by
  unfold reach
  split
  next old hold =>
      simp only [hold, reduceCtorEq, false_and, and_false, iff_false]
      exact fun h => (change_of_mem h).keepsColumns.1 _ _ rfl
  next hnone => simp [hnone, eq_comm]

theorem dropColumn_not_mem_reach {f : Field} {c : String} :
    .dropColumn table c ∉ reach d before after f := by
  unfold reach
  split
  · exact fun h => (change_of_mem h).keepsColumns.2 _ _ rfl
  · simp

/-- Everything but the creations and the drops is done to a kept table. -/
theorem mem_migration_iff_of_isAlteration {st : Statement} (h : st.isAlteration) :
    st ∈ migration d desired previous ↔ ∃ after ∈ desired.models, ∃ before,
      previous.model? after.name = some before ∧ st ∈ tableChanges d before after := by
  have hcreation : ∀ m : Model, m.creation d ≠ st := by
    rintro m rfl
    cases h
  have hdrop : ∀ name, Statement.dropTable name ≠ st := by
    rintro name rfl
    cases h
  simp only [migration, List.mem_append, List.mem_map, hcreation, hdrop, and_false, exists_false,
    false_or, or_false, List.mem_flatMap]
  refine exists_congr fun after => and_congr_right fun _ => ?_
  unfold kept
  cases previous.model? after.name <;> simp

/-- **Which columns are added**: those of a kept table that are wanted and were none before. -/
theorem addColumn_mem_migration_iff {c : String} :
    (∃ definition, definition.name = c ∧
        .addColumn table definition ∈ migration d desired previous) ↔
      ∃ after ∈ desired.models, after.name = table ∧ ∃ before,
        previous.model? table = some before ∧ c ∈ after.columns.map Field.name ∧
          columnNamed before c = none := by
  have halters : ∀ definition, (Statement.addColumn table definition).isAlteration := fun _ => rfl
  simp only [mem_migration_iff_of_isAlteration (halters _), mem_tableChanges_iff,
    addColumn_mem_reach_iff]
  constructor
  · rintro ⟨_, rfl, after, hafter, before, hbefore, ⟨f, hf, rfl, hnone, rfl⟩ | ⟨f, -, h⟩⟩
    · rw [Field.declaration_name]
      exact ⟨after, hafter, rfl, before, hbefore, List.mem_map_of_mem hf, hnone⟩
    · cases h
  · rintro ⟨after, hafter, rfl, before, hbefore, hc, hnone⟩
    obtain ⟨f, hf, rfl⟩ := List.mem_map.mp hc
    exact ⟨f.declaration d, Field.declaration_name f d, after, hafter, before, hbefore,
      .inl ⟨f, hf, rfl, hnone, rfl⟩⟩

/-- **Which columns are dropped**: those of a kept table that are wanted no more. -/
theorem dropColumn_mem_migration_iff {c : String} :
    .dropColumn table c ∈ migration d desired previous ↔
      ∃ after ∈ desired.models, after.name = table ∧ ∃ before,
        previous.model? table = some before ∧ c ∈ before.columns.map Field.name ∧
          columnNamed after c = none := by
  have halters : (Statement.dropColumn table c).isAlteration := rfl
  simp only [mem_migration_iff_of_isAlteration halters, mem_tableChanges_iff,
    dropColumn_not_mem_reach, and_false, exists_false, false_or, droppedColumns, List.mem_filter,
    Option.isNone_iff_eq_none]
  constructor
  · rintro ⟨after, hafter, before, hbefore, f, ⟨hf, hnone⟩, h⟩
    cases h
    exact ⟨after, hafter, rfl, before, hbefore, List.mem_map_of_mem hf, hnone⟩
  · rintro ⟨after, hafter, rfl, before, hbefore, hc, hnone⟩
    obtain ⟨f, hf, rfl⟩ := List.mem_map.mp hc
    exact ⟨after, hafter, before, hbefore, f, ⟨hf, hnone⟩, rfl⟩

end

/-- **What a migration drops of what is wanted.**  No table of a wanted model is dropped.  A wanted
join table is dropped just where it is a model of the deployed schema and no wanted one; where the
deployed schema comes from a snapshot, that is a table of its name that is not folded. -/
theorem dropTable_joinTable_iff {d : Dialect} {desired previous : Schema} {stmts : List Statement}
    (hplan : (plan d desired (some previous)).outcome = .ok stmts) :
    (∀ name ∈ desired.modelNames, .dropTable name ∉ stmts) ∧
      (∀ j ∈ desired.joinTables, .dropTable j.name ∈ stmts ↔
        j.name ∈ previous.modelNames ∧ j.name ∉ desired.modelNames) ∧
      ∀ (s : Snapshot) (e : Dialect), (s.schema e).outcome = .ok previous →
        ∀ j ∈ desired.joinTables, .dropTable j.name ∈ stmts ↔
          j.name ∈ s.names ∧ ¬ s.Folds j.name ∧ j.name ∉ desired.modelNames := by
  obtain ⟨-, rfl⟩ := diff_ok_iff.mp hplan
  refine ⟨fun name hname h => ?_, fun j _ => dropTable_mem_migration_iff, fun s e hs j _ => ?_⟩
  · exact (dropTable_mem_migration_iff.mp h).2 hname
  · rw [dropTable_mem_migration_iff, Snapshot.mem_modelNames_schema_iff hs, and_assoc]

/-- Posts and tags, with a join table between them. -/
def taggedPosts : Schema :=
  ⟨[{ name := "post"
      fields :=
        [{ name := "id", typeName := "int", isPrimaryKey := true },
         { name := "tags", typeName := "tag", isArray := true
           relation := some ⟨.manyToMany, none⟩ }] },
    { name := "tag", fields := [{ name := "id", typeName := "int", isPrimaryKey := true }] }]⟩

/-- The table of a model with nothing but a key. -/
def keyTable (name : String) : Table :=
  { name
    columns := [{ name := "id", dataType := "integer", elementType := "int4", isNullable := false }]
    constraints := [{ name := name ++ "_pkey", kind := "PRIMARY KEY", columns := ["id"] }] }

/-- A join table between posts and tags, with more columns or none. -/
def postTagTable (more : List Column) : Table :=
  { name := "_post_tag"
    columns :=
      [{ name := "A_id", dataType := "integer", elementType := "int4", isNullable := false },
       { name := "B_id", dataType := "integer", elementType := "int4", isNullable := false }] ++ more
    constraints :=
      [{ name := "_post_tag_A_id_fkey", kind := "FOREIGN KEY", columns := ["A_id"]
         table := some "post", targets := some ["id"] },
       { name := "_post_tag_B_id_fkey", kind := "FOREIGN KEY", columns := ["B_id"]
         table := some "tag", targets := some ["id"] }] }

/-- Posts and tags as they are deployed, with more columns in the join table or none. -/
def taggedPostsDeployed (more : List Column) : Snapshot :=
  [postTagTable more, keyTable "post", keyTable "tag"]

/-- A join table as it was made is not dropped. -/
theorem dropTable_not_mem_taggedPosts : ∃ previous stmts,
    ((taggedPostsDeployed []).schema .postgres).outcome = .ok previous ∧
      (plan .postgres taggedPosts (some previous)).outcome = .ok stmts ∧
      ∀ j ∈ taggedPosts.joinTables, .dropTable j.name ∉ stmts := by
  obtain ⟨previous, hprevious, hnames, hplan⟩ : ∃ previous,
      ((taggedPostsDeployed []).schema .postgres).outcome = .ok previous ∧
        previous.modelNames = ["post", "tag"] ∧
        (plan .postgres taggedPosts (some previous)).outcome = .ok [] :=
    ⟨_, by with_unfolding_all rfl, by with_unfolding_all rfl, by with_unfolding_all rfl⟩
  refine ⟨previous, [], hprevious, hplan, fun j hj h => ?_⟩
  have hjoin : j.name ∈ taggedPosts.joinTables.map JoinTable.name := List.mem_map_of_mem hj
  obtain ⟨-, hdropped, -⟩ := dropTable_joinTable_iff hplan
  have hname : j.name ∈ previous.modelNames := ((hdropped j hj).mp h).1
  rw [hnames] at hname
  have hnone : ∀ name ∈ taggedPosts.joinTables.map JoinTable.name, name ∉ ["post", "tag"] := by
    decide +kernel
  exact hnone _ hjoin hname

/-- A join table to which a column was added by hand is dropped. -/
theorem dropTable_mem_taggedPosts : ∃ previous, ∃ j ∈ taggedPosts.joinTables,
    ((taggedPostsDeployed
      [{ name := "position", dataType := "integer", elementType := "int4" }]).schema
        .postgres).outcome = .ok previous ∧
      (plan .postgres taggedPosts (some previous)).outcome = .ok [.dropTable j.name] :=
  ⟨_, ⟨"_post_tag", "post", "tag"⟩, by decide +kernel, by with_unfolding_all rfl,
    by with_unfolding_all rfl⟩

end Plan

end Schemata
