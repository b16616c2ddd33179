import Schemata.Proofs.Catalog.Created
import Schemata.Proofs.Plan.Fresh

/-!
# Proofs — how far a fresh script is closed

Under the strict rules a name that is referred to is that of a model or of a field, but a script
refers to tables and columns.  In every table of a fresh script the columns have different names,
and every foreign key leads to a table of the script.  The rest is up to the schema
(`Plan.IsClosedWhere`): whether a table has columns and one key, whether constraints are on columns
of the table, and whether foreign keys lead to columns, which for a model's foreign key have to be
called `id`.  `Schema.Compiles.isClosedWhere` says for each of these which schemas have it.
-/

namespace Schemata

/-- The names of the columns that the parts of a table declare. -/
def definedColumns (elements : List TableElement) : List String :=
  (columnsOf elements).map ColumnDefinition.name

namespace Model

/-- The names of a model's columns. -/
def columnNames (m : Model) : List String := m.columns.map Field.name

/-- The columns that a model's table defines are the model's. -/
theorem definedColumns_elements (m : Model) (d : Dialect) :
    definedColumns (m.elements d) = m.columnNames := by
  unfold definedColumns columnNames
  rw [columnsOf_elements, List.map_map]
  exact List.map_congr_left fun f _ => f.declaration_name d

theorem countP_isKey_elements (m : Model) (d : Dialect) :
    (columnsOf (m.elements d)).countP (·.isKey) = m.columns.countP (·.isPrimaryKey) := by
  rw [columnsOf_elements, List.countP_map]
  exact List.countP_congr fun f _ => by rw [Function.comp_apply, f.isKey_declaration]

/-- A foreign key of a model's table is one of the model, and leads to a column `id`. -/
theorem key_mem_elements_iff {m : Model} {d : Dialect} {column target key : String}
    {cascades : Bool} : .foreignKey column target key cascades ∈ m.elements d ↔
      m.HoldsKey column target ∧ key = "id" ∧ cascades = false := by
  rw [mem_elements_iff]
  simp only [reduceCtorEq, and_false, exists_false, false_or, TableElement.foreignKey.injEq]
  constructor
  · rintro ⟨_, _, hkey, rfl, rfl, rfl, rfl⟩
    exact ⟨hkey, rfl, rfl⟩
  · rintro ⟨hkey, rfl, rfl⟩
    exact ⟨_, _, hkey, rfl, rfl, rfl, rfl⟩

end Model

namespace Plan

/-! ### Clauses -/

/-- The parts of every table that a script creates are as `P` asks. -/
def EachTable (stmts : List Statement) (P : List TableElement → Prop) : Prop :=
  ∀ table elements, .createTable table elements ∈ stmts → P elements

/-- The script creates the table with a column of the name. -/
def Defines (stmts : List Statement) (table column : String) : Prop :=
  ∃ elements, .createTable table elements ∈ stmts ∧ column ∈ definedColumns elements

/-- Every member of a unique constraint is a column of the table. -/
def MembersDefined (elements : List TableElement) : Prop :=
  ∀ columns, .unique columns ∈ elements → ∀ column ∈ columns, column ∈ definedColumns elements

/-- Every foreign key is on a column of the table. -/
def KeysDefined (elements : List TableElement) : Prop :=
  ∀ column target key cascades, .foreignKey column target key cascades ∈ elements →
    column ∈ definedColumns elements

/-- Every foreign key leads to a column of a table that the script creates. -/
def ReferencesDefined (stmts : List Statement) (elements : List TableElement) : Prop :=
  ∀ column target key cascades, .foreignKey column target key cascades ∈ elements →
    Defines stmts target key

/-- What is closed in every fresh script of a schema, and on which condition the rest is. -/
structure IsClosedWhere (S : Schema) (stmts : List Statement) : Prop where
  distinct : EachTable stmts fun elements => (definedColumns elements).Nodup
  targets : EachTable stmts fun elements => ∀ column target key cascades,
    .foreignKey column target key cascades ∈ elements → target ∈ createdTables stmts
  columns : EachTable stmts (fun elements => definedColumns elements ≠ []) ↔
    ∀ m ∈ S.models, m.columnNames ≠ []
  keys : EachTable stmts (fun elements => (columnsOf elements).countP (·.isKey) ≤ 1) ↔
    ∀ m ∈ S.models, m.columns.countP (·.isPrimaryKey) ≤ 1
  uniques : EachTable stmts MembersDefined ↔
    ∀ m ∈ S.models, ∀ columns ∈ m.uniques, ∀ column ∈ columns, column ∈ m.columnNames
  foreignKeys : EachTable stmts KeysDefined ↔
    ∀ m ∈ S.models, ∀ column target, m.HoldsKey column target → column ∈ m.columnNames
  references : EachTable stmts (ReferencesDefined stmts) ↔
    (∀ m ∈ S.models, ∀ column, ∀ n ∈ S.models, m.HoldsKey column n.name → "id" ∈ n.columnNames) ∧
      ∀ j ∈ S.joinTables, ∀ n ∈ S.models, n.name = j.left ∨ n.name = j.right →
        (∃ f, n.primaryKey? = some f ∧ f.isColumn) ∨ "id" ∈ n.columnNames

variable {d : Dialect} {S : Schema} {stmts : List Statement}

/-- What holds of each table of a fresh script holds of those of models and of join tables. -/
theorem eachTable_iff (hnames : S.modelNames.Nodup) (h : (plan d S none).outcome = .ok stmts)
    {P : List TableElement → Prop} :
    EachTable stmts P ↔ (∀ m ∈ S.models, P (m.elements d)) ∧
      ∀ j ∈ S.joinTables, P (linkElements d S j) := by
  unfold EachTable
  simp only [createTable_mem_fresh_iff hnames h]
  constructor
  · exact fun hall => ⟨fun m hm => hall _ _ (.inl ⟨m, hm, rfl, rfl⟩),
      fun j hj => hall _ _ (.inr ⟨j, hj, rfl, rfl⟩)⟩
  · rintro ⟨hmodels, hjoins⟩ table elements (⟨m, hm, -, rfl⟩ | ⟨j, hj, -, rfl⟩)
    · exact hmodels m hm
    · exact hjoins j hj

/-- Where a clause holds of every join table, it is up to the models. -/
theorem eachTable_iff_of_joins (hnames : S.modelNames.Nodup)
    (h : (plan d S none).outcome = .ok stmts) {P : List TableElement → Prop}
    (hjoins : ∀ j, P (linkElements d S j)) :
    EachTable stmts P ↔ ∀ m ∈ S.models, P (m.elements d) := by
  rw [eachTable_iff hnames h]
  exact and_iff_left fun j _ => hjoins j

/-! ### Join tables -/

variable {j : JoinTable} {column target key : String} {cascades : Bool}

theorem definedColumns_linkElements : definedColumns (linkElements d S j) =
    ["A_" ++ (keyOf d S j.left).1, "B_" ++ (keyOf d S j.right).1] := rfl

theorem countP_isKey_linkElements : (columnsOf (linkElements d S j)).countP (·.isKey) = 0 := rfl

/-- The foreign keys of a join table are one for each end, and rows go with what they refer to. -/
theorem foreignKey_mem_linkElements_iff :
    .foreignKey column target key cascades ∈ linkElements d S j ↔ cascades = true ∧
      (column = "A_" ++ (keyOf d S j.left).1 ∧ target = j.left ∧ key = (keyOf d S j.left).1 ∨
        column = "B_" ++ (keyOf d S j.right).1 ∧ target = j.right ∧
          key = (keyOf d S j.right).1) := by
  unfold linkElements joinColumn
  simp only [List.mem_cons, List.not_mem_nil, or_false, reduceCtorEq, false_or,
    TableElement.foreignKey.injEq]
  tauto

/-- What is unique in a join table is the pair of its columns. -/
theorem unique_mem_linkElements_iff {columns : List String} :
    .unique columns ∈ linkElements d S j ↔ columns = definedColumns (linkElements d S j) := by
  rw [definedColumns_linkElements]
  unfold linkElements joinColumn
  simp only [List.mem_cons, List.not_mem_nil, or_false, reduceCtorEq, false_or,
    TableElement.unique.injEq]

theorem definedColumns_linkElements_nodup : (definedColumns (linkElements d S j)).Nodup := by
  rw [definedColumns_linkElements]
  simp [joinColumn_names_ne]

theorem membersDefined_linkElements : MembersDefined (linkElements d S j) :=
  fun _ hcolumns _ hcolumn => unique_mem_linkElements_iff.mp hcolumns ▸ hcolumn

theorem keysDefined_linkElements : KeysDefined (linkElements d S j) := by
  intro column target key cascades h
  rw [definedColumns_linkElements]
  obtain ⟨-, ⟨rfl, -⟩ | ⟨rfl, -⟩⟩ := foreignKey_mem_linkElements_iff.mp h
  · exact List.mem_cons_self
  · exact List.mem_cons_of_mem _ List.mem_cons_self

/-- No column of a join table has a name in snake case. -/
theorem not_mem_definedColumns_linkElements (hcolumn : isSnakeCase column) :
    column ∉ definedColumns (linkElements d S j) := by
  obtain ⟨c, cs, hchars, hc⟩ := exists_cons_of_isSnakeCase hcolumn
  rw [definedColumns_linkElements, List.mem_pair]
  rintro (rfl | rfl) <;> rw [String.toList_append] at hchars <;>
    rw [← (List.cons.inj hchars).1] at hc <;> exact absurd hc (by decide)

/-! ### Columns that are referred to -/

/-- A script defines a column of a model's table where the model has it. -/
theorem defines_iff (hnames : S.modelNames.Nodup) (h : (plan d S none).outcome = .ok stmts)
    (hcolumn : isSnakeCase column) {m : Model} (hm : m ∈ S.models) :
    Defines stmts m.name column ↔ column ∈ m.columnNames := by
  unfold Defines
  simp only [createTable_mem_fresh_iff hnames h]
  constructor
  · rintro ⟨elements, ⟨n, hn, hname, rfl⟩ | ⟨j, -, -, rfl⟩, hmem⟩
    · rwa [List.inj_on_of_nodup_map hnames hm hn hname, ← n.definedColumns_elements d]
    · exact absurd hmem (not_mem_definedColumns_linkElements hcolumn)
  · intro hmem
    exact ⟨_, .inl ⟨m, hm, rfl, rfl⟩, by rwa [m.definedColumns_elements]⟩

/-- The key of a model that a join table refers to is in snake case. -/
theorem isSnakeCase_keyOf (hS : S.IsAccepted) (model : String) :
    isSnakeCase (keyOf d S model).1 := by
  unfold keyOf
  split
  next f hf =>
      obtain ⟨m, hm, hkey⟩ := Option.bind_eq_some_iff.mp (Option.filter_eq_some_iff.mp hf).1
      exact (hS.isSnakeCase (Schema.mem_of_model? hm).1).2 f (List.mem_of_find?_eq_some hkey)
  next => exact (by decide : isSnakeCase "id" = true)

/-- A model has the key that a join table refers to, if its first primary key is a column or it has
a column `id`. -/
theorem keyOf_mem_columnNames_iff (hnames : S.modelNames.Nodup) {m : Model} (hm : m ∈ S.models) :
    (keyOf d S m.name).1 ∈ m.columnNames ↔
      (∃ f, m.primaryKey? = some f ∧ f.isColumn) ∨ "id" ∈ m.columnNames := by
  have hmodel : S.model? m.name = some m := (Schema.model?_eq_some_iff hnames).mpr ⟨hm, rfl⟩
  unfold keyOf
  rw [hmodel, Option.bind_some]
  split
  next f hf =>
      obtain ⟨hkey, hcolumn⟩ := Option.filter_eq_some_iff.mp hf
      have hmem : f ∈ m.columns :=
        Model.mem_columns_iff.mpr ⟨List.mem_of_find?_eq_some hkey, hcolumn⟩
      exact iff_of_true (List.mem_map_of_mem hmem) (.inl ⟨f, hkey, hcolumn⟩)
  next hnone =>
      refine (or_iff_right ?_).symm
      rintro ⟨f, hkey, hcolumn⟩
      rw [Option.filter_eq_some_iff.mpr ⟨hkey, hcolumn⟩] at hnone
      cases hnone

/-- The foreign keys of a fresh script lead to columns of its tables where those of models lead to
models with a column `id`, and the join tables to models with a key. -/
theorem references_iff (hS : S.Compiles) (h : (plan d S none).outcome = .ok stmts) :
    EachTable stmts (ReferencesDefined stmts) ↔
      (∀ m ∈ S.models, ∀ column, ∀ n ∈ S.models, m.HoldsKey column n.name → "id" ∈ n.columnNames) ∧
        ∀ j ∈ S.joinTables, ∀ n ∈ S.models, n.name = j.left ∨ n.name = j.right →
          (∃ f, n.primaryKey? = some f ∧ f.isColumn) ∨ "id" ∈ n.columnNames := by
  have hstrict := hS.isStrict
  have hnames := hstrict.distinct.models
  have hid : isSnakeCase "id" = true := by decide
  rw [eachTable_iff hnames h]
  refine and_congr (forall₂_congr fun m hm => ?_) (forall₂_congr fun j hj => ?_)
  · simp only [ReferencesDefined, Model.key_mem_elements_iff]
    constructor
    · intro hall column n hn hkey
      exact (defines_iff hnames h hid hn).mp (hall column n.name "id" false ⟨hkey, rfl, rfl⟩)
    · rintro hall column target key cascades ⟨hkey, rfl, rfl⟩
      obtain ⟨n, hn, rfl⟩ := List.mem_map.mp (hstrict.target_mem hm hkey)
      exact (defines_iff hnames h hid hn).mpr (hall column n hn hkey)
  · have hdefines : ∀ n ∈ S.models, Defines stmts n.name (keyOf d S n.name).1 ↔
        (∃ f, n.primaryKey? = some f ∧ f.isColumn) ∨ "id" ∈ n.columnNames := fun n hn => by
      rw [defines_iff hnames h (isSnakeCase_keyOf hS.isAccepted n.name) hn,
        keyOf_mem_columnNames_iff hnames hn]
    constructor
    · rintro hall n hn (hleft | hright)
      · exact (hdefines n hn).mp (hleft ▸ hall _ _ _ _
          (foreignKey_mem_linkElements_iff.mpr ⟨rfl, .inl ⟨rfl, rfl, rfl⟩⟩))
      · exact (hdefines n hn).mp (hright ▸ hall _ _ _ _
          (foreignKey_mem_linkElements_iff.mpr ⟨rfl, .inr ⟨rfl, rfl, rfl⟩⟩))
    · intro hall column target key cascades hkey
      obtain ⟨hleft, hright⟩ := hstrict.ends_mem hj
      obtain ⟨-, ⟨-, rfl, rfl⟩ | ⟨-, rfl, rfl⟩⟩ := foreignKey_mem_linkElements_iff.mp hkey
      · obtain ⟨n, hn, hname⟩ := List.mem_map.mp hleft
        exact hname ▸ (hdefines n hn).mpr (hall n hn (.inl hname))
      · obtain ⟨n, hn, hname⟩ := List.mem_map.mp hright
        exact hname ▸ (hdefines n hn).mpr (hall n hn (.inr hname))

end Plan

/-- **How far a fresh script is closed** under the strict rules.  In every table the columns have
different names, and foreign keys lead to tables of the script.  Every table has columns, or one
key at most, or constraints on its own columns alone, just where every model has; and foreign keys
lead to columns just where the referenced models have a column `id`, or in join tables a key. -/
theorem Schema.Compiles.isClosedWhere {d : Dialect} {S : Schema} {stmts : List Statement}
    (hS : S.Compiles) (h : (plan d S none).outcome = .ok stmts) : Plan.IsClosedWhere S stmts := by
  have hstrict := hS.isStrict
  have hnames := hstrict.distinct.models
  have hcreated : ∀ name ∈ S.modelNames, name ∈ Plan.createdTables stmts := fun name hname =>
    (Plan.createdTables_perm h).mem_iff.mpr (List.mem_append_left _ hname)
  refine ⟨?distinct, ?targets, ?columns, ?keys, ?uniques, ?foreignKeys, Plan.references_iff hS h⟩
  case distinct =>
    refine (Plan.eachTable_iff_of_joins hnames h fun j =>
      Plan.definedColumns_linkElements_nodup).mpr fun m hm => ?_
    rw [m.definedColumns_elements]
    exact Model.columns_nodup (hstrict.distinct.fields m hm)
  case targets =>
    refine (Plan.eachTable_iff hnames h).mpr
      ⟨fun m hm column target key cascades hkey => ?_,
        fun j hj column target key cascades hkey => ?_⟩
    · exact hcreated _ (hstrict.target_mem hm (Model.key_mem_elements_iff.mp hkey).1)
    · obtain ⟨hleft, hright⟩ := hstrict.ends_mem hj
      obtain ⟨-, ⟨-, rfl, -⟩ | ⟨-, rfl, -⟩⟩ := Plan.foreignKey_mem_linkElements_iff.mp hkey
      · exact hcreated _ hleft
      · exact hcreated _ hright
  case columns =>
    rw [Plan.eachTable_iff_of_joins hnames h fun j => List.cons_ne_nil _ _]
    simp only [Model.definedColumns_elements]
  case keys =>
    rw [Plan.eachTable_iff_of_joins hnames h fun j =>
      Plan.countP_isKey_linkElements.trans_le (Nat.zero_le 1)]
    simp only [Model.countP_isKey_elements]
  case uniques =>
    rw [Plan.eachTable_iff_of_joins hnames h fun j => Plan.membersDefined_linkElements]
    simp only [Plan.MembersDefined, Model.unique_mem_elements_iff, Model.definedColumns_elements]
  case foreignKeys =>
    rw [Plan.eachTable_iff_of_joins hnames h fun j => Plan.keysDefined_linkElements]
    simp only [Plan.KeysDefined, Model.key_mem_elements_iff, Model.definedColumns_elements]
    exact forall₂_congr fun m hm =>
      ⟨fun hall column target hkey => hall column target "id" false ⟨hkey, rfl, rfl⟩,
        fun hall column target _ _ hkey => hall column target hkey.1⟩

/-- The tables of users with tags have columns, and foreign keys to keys. -/
theorem taggedUsers_closed : ∃ stmts, (plan .postgres taggedUsers none).outcome = .ok stmts ∧
    Plan.EachTable stmts (fun elements => definedColumns elements ≠ []) ∧
    Plan.EachTable stmts (Plan.ReferencesDefined stmts) := by
  obtain ⟨stmts, hplan⟩ : ∃ stmts, (plan .postgres taggedUsers none).outcome = .ok stmts :=
    ⟨_, by with_unfolding_all rfl⟩
  have hclosed := taggedUsers_compiles.isClosedWhere hplan
  have hkeyless : ∀ m ∈ taggedUsers.models, ∀ f ∈ m.fields, f.foreignKeyTarget? = none := by
    decide +kernel
  have hid : ∀ m ∈ taggedUsers.models, "id" ∈ m.columnNames := by decide +kernel
  refine ⟨stmts, hplan, hclosed.columns.mpr fun m hm => List.ne_nil_of_mem (hid m hm),
    hclosed.references.mpr ⟨?_, fun j _ n hn _ => .inr (hid n hn)⟩⟩
  rintro m hm column n hn ⟨f, hf, htarget, -⟩
  rw [hkeyless m hm f hf] at htarget
  cases htarget

/-- A source with pets that are told apart by their owners, and owners with two keys. -/
def petsSource : String :=
  "model pet \x7b\n  owner person @many_to_one(owner)\n  friends pet[] @many_to_many\n" ++
    "  @@unique([owner])\n\x7d\nmodel person \x7b\n  name string @primary_key\n" ++
    "  mail string @primary_key\n\x7d\n"

/-- The schema of that source. -/
def pets : Schema :=
  ⟨[{ name := "pet"
      fields :=
        [{ name := "owner", typeName := "person", relation := some ⟨.manyToOne, some "owner"⟩
           position := ⟨2, 3⟩ },
         { name := "friends", typeName := "pet", isArray := true
           relation := some ⟨.manyToMany, none⟩, position := ⟨3, 3⟩ }]
      uniques := [["owner"]]
      position := ⟨1, 1⟩ },
    { name := "person"
      fields :=
        [{ name := "name", typeName := "string", isPrimaryKey := true, position := ⟨7, 3⟩ },
         { name := "mail", typeName := "string", isPrimaryKey := true, position := ⟨8, 3⟩ }]
      position := ⟨6, 1⟩ }]⟩

theorem pets_compiles : pets.Compiles :=
  @Schema.Compiles.of_source petsSource _ pets
    (Text.toList_append_of_eq (Text.toList_append_of_eq (Text.toList_of_eq rfl) rfl) rfl)
    (by decide +kernel)

/-- The fresh script of that source. -/
def petsScript : List Statement :=
  [.createTable "person"
     [.column { name := "name", type := "VARCHAR(255)", isKey := true, isNotNull := true },
      .column { name := "mail", type := "VARCHAR(255)", isKey := true, isNotNull := true }],
   .createTable "pet" [.unique ["owner"], .foreignKey "owner" "person" "id" false],
   .createTable "_pet_pet"
     [Plan.joinColumn "A_id" "INTEGER", Plan.joinColumn "B_id" "INTEGER",
      .foreignKey "A_id" "pet" "id" true, .foreignKey "B_id" "pet" "id" true,
      .unique ["A_id", "B_id"]]]

/-- **A script that is not closed**: pets have no column, and so none to be told apart by or to refer
to their owners with; owners have two keys, and no column `id`. -/
theorem pets_open : pets.Compiles ∧ (plan .postgres pets none).outcome = .ok petsScript ∧
    ¬ Plan.EachTable petsScript (fun elements => definedColumns elements ≠ []) ∧
    ¬ Plan.EachTable petsScript (fun elements => (columnsOf elements).countP (·.isKey) ≤ 1) ∧
    ¬ Plan.EachTable petsScript Plan.MembersDefined ∧
    ¬ Plan.EachTable petsScript Plan.KeysDefined ∧
    ¬ Plan.EachTable petsScript (Plan.ReferencesDefined petsScript) := by
  have hplan : (plan .postgres pets none).outcome = .ok petsScript :=
    Except.toOption_eq_some_iff.mp (by decide +kernel)
  have hpet : .createTable "pet" [.unique ["owner"], .foreignKey "owner" "person" "id" false] ∈
      petsScript := by decide
  refine ⟨pets_compiles, hplan, fun h => h _ _ hpet rfl, fun h => ?_, fun h => ?_, fun h => ?_,
    fun h => ?_⟩
  · exact absurd (h "person" _ List.mem_cons_self) (by decide)
  · exact absurd (h _ _ hpet ["owner"] (by decide) "owner" (by decide)) (by decide)
  · exact absurd (h _ _ hpet "owner" "person" "id" false (by decide)) (by decide)
  · obtain ⟨elements, htable, hid⟩ := h _ _ hpet "owner" "person" "id" false (by decide)
    simp only [petsScript, List.mem_cons, Statement.createTable.injEq, String.reduceEq, false_and,
      List.not_mem_nil, or_false, true_and] at htable
    rw [htable] at hid
    exact absurd hid (by decide)

end Schemata
