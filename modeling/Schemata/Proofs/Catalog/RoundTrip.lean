import Schemata.Proofs.Catalog.Created
import Schemata.Proofs.Catalog.Relations
import Schemata.Proofs.Plan.Changes

/-!
# Proofs — catalogs — there and back

A schema is deployed, the catalog is read, and the plan from what is seen to the schema is empty
(`Schema.Compiles.roundTrip`).  Each column is seen as it was declared
(`Schema.Deployed.alike_shownField`), the fields that stand for relations are no columns, and the
join tables are folded, so the models that are seen are those of the schema.
-/

namespace Schemata

namespace Schema.Deployed

variable {S : Schema} {s : Snapshot} {t : Table} {m : Model} {shown : Schema}

/-- No field of the type of a model is a column. -/
theorem not_isColumn_of_mem (h : S.Deployed s) {f : Field} (hf : f.typeName ∈ S.modelNames) :
    f.isColumn = false := by
  obtain ⟨m, hm, hname⟩ := List.mem_map.mp hf
  unfold Field.isColumn Field.scalar?
  rw [← hname, (h.strict.names m hm).2]
  rfl

/-- **A model that is seen**: its columns are the fields of the columns of its table, and come
before the fields that stand for relations. -/
theorem shown_fields (h : S.Deployed s) (hshown : (s.schema .postgres).outcome = .ok shown)
    (hm : m ∈ shown.models) :
    ∃ t ∈ s, t.name = m.name ∧ ∃ fields more, m.fields = fields ++ more ∧
      List.Forall₂ (fun r f => t.columnField .postgres r = .ok f) t.columns fields ∧
      ∀ f ∈ more, f.isColumn = false := by
  obtain ⟨t, ht, -, bare, hmodel, rfl⟩ := (Snapshot.mem_models_schema_iff hshown).mp hm
  obtain ⟨fields, hfields, rfl⟩ := Table.model_ok_iff.mp hmodel
  refine ⟨t, ht, by rw [Snapshot.withLinks_name], ?_⟩
  obtain ⟨more, hmore, hrest⟩ := s.withLinks_eq
    { name := t.name
      fields := fields ++ Table.relationFields (fields.map Field.name) t.foreignKeys
      uniques := t.uniques.filter fun columns => columns.length != 1 }
  refine ⟨fields, _, (congrArg Model.fields hmore).trans (List.append_assoc _ _ _), hfields,
    fun f hf => ?_⟩
  refine h.not_isColumn_of_mem ?_
  rcases List.mem_append.mp hf with hf | hf
  · obtain ⟨⟨column, target⟩, hkey, htarget⟩ :=
      List.mem_map.mp (Table.typeName_of_mem_relationFields hf)
    rw [← htarget]
    exact h.target_mem ht (Table.refers_of_mem_foreignKeys hkey)
  · obtain ⟨u, hu, hjoins, -⟩ := exists_of_forall₂ hrest.flip hf
    -- a table that is folded leads to models, like every foreign key
    obtain ⟨column, hleads⟩ := hjoins.exists_leadsTo_iff.mpr (.inr rfl)
    exact h.target_mem (List.mem_filter.mp hu).1
      (Table.refers_of_mem_foreignKeys (Table.mem_foreignKeys_iff.mpr hleads))

section

variable {f : Field} {r : Column} {default : Option Default}

/-- The stored type of a column is shown as it was. -/
theorem storedType_shownField (hf : f ∈ m.columns) (hr : r.Reports (f.declaration .postgres))
    (hint : f.isIdentity → f.scalar? = some .int ∧ f.isArray = false) :
    (t.shownField r default).storedType .postgres = f.storedType .postgres := by
  obtain ⟨x, hx⟩ := Field.isColumn_iff.mp (Model.isColumn_of_mem_columns hf)
  have hshown : (t.shownField r default).storedType .postgres =
      (postgresScalar r.dataType r.elementType).1.columnType
        (postgresScalar r.dataType r.elementType).2 .postgres := by
    rw [Field.storedType, Table.scalar?_shownField]
    rfl
  rw [hshown, postgresScalar_reported hr hx, Field.storedType, hx]
  cases hid : f.isIdentity with
  | true =>
      obtain ⟨hscalar, harray⟩ := hint hid
      cases hx.symm.trans hscalar
      rw [harray]
      rfl
  | false =>
      -- an array of `json` values is read as one value, and that is how it is stored
      cases x <;> cases f.isArray <;> rfl

theorem isPrimaryKey_shownField (h : S.Deployed s) (hm : m ∈ S.models) (ht : t ∈ s)
    (hname : t.name = m.name) (hf : f ∈ m.columns) (hr : r.Reports (f.declaration .postgres)) :
    (t.shownField r default).isPrimaryKey = f.isPrimaryKey := by
  show t.primaryKey.contains r.name = f.isPrimaryKey
  rw [Bool.eq_iff_iff, List.contains_iff_mem, hr.name, f.declaration_name]
  exact h.mem_primaryKey_iff hm ht hname hf

theorem isNotNull_shownField (hr : r.Reports (f.declaration .postgres))
    (hkey : (t.shownField r default).isPrimaryKey = f.isPrimaryKey) :
    (t.shownField r default).isNotNull = f.isNotNull := by
  have hnull := hr.isNullable
  rw [f.isKey_declaration, f.isNotNull_declaration] at hnull
  show (!r.isNullable && !(t.shownField r default).isPrimaryKey ||
    (t.shownField r default).isPrimaryKey) = f.isNotNull
  rw [hkey, hnull]
  cases hpk : f.isPrimaryKey <;> simp [Field.isNotNull, hpk]

/-- A unique column is shown as one, if its name is not declared unique by itself as well. -/
theorem hasUniqueConstraint_shownField (h : S.Deployed s) (hm : m ∈ S.models) (ht : t ∈ s)
    (hname : t.name = m.name) (hf : f ∈ m.columns) (hr : r.Reports (f.declaration .postgres))
    (hunique : [f.name] ∉ m.uniques)
    (hkey : (t.shownField r default).isPrimaryKey = f.isPrimaryKey) :
    (t.shownField r default).hasUniqueConstraint = f.hasUniqueConstraint := by
  -- a constraint of a block on this column alone would make the column unique
  have hdeclared : t.uniques.contains [f.name] = (f.declaration .postgres).isUnique := by
    rw [Bool.eq_iff_iff, List.contains_iff_mem, (h.reports_model hm ht hname).mem_uniques_iff,
      Model.unique_mem_elements_iff, or_iff_left hunique]
    simp only [List.cons.injEq, and_true]
    exact Model.exists_declaration_iff (h.strict.distinct.fields m hm) hf
  show (t.uniques.contains [r.name] && !(t.shownField r default).isPrimaryKey &&
    !(t.shownField r default).isPrimaryKey) = f.hasUniqueConstraint
  rw [hkey, hr.name, f.declaration_name, hdeclared, Bool.and_assoc, Bool.and_self,
    f.isUnique_declaration]

/-- **The column of a reported table** is seen as it was declared. -/
theorem alike_shownField (h : S.Deployed s) (hm : m ∈ S.models) (ht : t ∈ s)
    (hname : t.name = m.name) (hf : f ∈ m.columns) (hr : r.Reports (f.declaration .postgres))
    (hint : f.isIdentity → f.scalar? = some .int ∧ f.isArray = false)
    (hunique : [f.name] ∉ m.uniques) (hdefault : default = f.default) :
    Field.Alike .postgres (t.shownField r default) f := by
  have hkey : (t.shownField r default).isPrimaryKey = f.isPrimaryKey :=
    h.isPrimaryKey_shownField hm ht hname hf hr
  refine ⟨storedType_shownField hf hr hint, isNotNull_shownField hr hkey, ?_,
    h.hasUniqueConstraint_shownField hm ht hname hf hr hunique hkey⟩
  rw [← hdefault]
  exact Default.sameOption_self _

end

/-- The fields of a table's columns have the names of the model's columns. -/
theorem map_name_fields (h : S.Deployed s) (hm : m ∈ S.models) (ht : t ∈ s)
    (hname : t.name = m.name) {fields : List Field}
    (hfields : List.Forall₂ (fun r f => t.columnField .postgres r = .ok f) t.columns fields) :
    fields.map Field.name = m.columns.map Field.name := by
  have hreports := (h.reports_model hm ht hname).columns
  rw [Model.columnsOf_elements, List.forall₂_map_right_iff] at hreports
  have hdeclared : t.columns.map Column.name = m.columns.map Field.name :=
    map_eq_of_forall₂ (hreports.imp fun r f hr => hr.name.trans (f.declaration_name .postgres))
  exact (Table.map_name_columnFields hfields).trans hdeclared

/-- A model that is seen has the columns of the declared one, alike, and no others. -/
theorem tableChanges_eq_nil (h : S.Deployed s)
    (hshown : (s.schema .postgres).outcome = .ok shown) (hm : m ∈ S.models) {before : Model}
    (hbefore : before ∈ shown.models) (hname : before.name = m.name)
    (hplain : ∀ f ∈ m.columns, f.IsPlain)
    (hint : ∀ f ∈ m.columns, f.isIdentity → f.scalar? = some .int ∧ f.isArray = false)
    (hunique : ∀ f ∈ m.columns, [f.name] ∉ m.uniques) :
    Plan.tableChanges .postgres before m = [] := by
  obtain ⟨t, ht, htname, fields, more, hfields, hforall, hmore⟩ := h.shown_fields hshown hbefore
  have htm : t.name = m.name := htname.trans hname
  have hdistinct := h.strict.distinct.fields m hm
  have hnames : fields.map Field.name = m.columns.map Field.name :=
    h.map_name_fields hm ht htm hforall
  have hnodup : (fields.map Field.name).Nodup := hnames ▸ Model.columns_nodup hdistinct
  refine Plan.tableChanges_eq_nil_iff.mpr ⟨fun f hf => ?_, fun g hg => ?_⟩
  · obtain ⟨r, hr, hreports⟩ := h.exists_column hm ht htm hf
    obtain ⟨g, hg, hgr⟩ := exists_of_forall₂ hforall hr
    obtain ⟨x, hx⟩ := Field.isColumn_iff.mp (Model.isColumn_of_mem_columns hf)
    obtain ⟨d, hd, hdefault⟩ := @Table.columnField_reported t r f x hreports hx (h.fits m hm f hf)
      (h.strict.defaults m hm f (Model.mem_columns_iff.mp hf).1)
    cases hgr.symm.trans hd
    refine ⟨_, ?_, h.alike_shownField hm ht htm hf hreports (hint f hf) (hunique f hf)
      (hdefault (hplain f hf))⟩
    -- the columns come first, so a relation of the same name is not what is found
    have hfind := (find?_name_eq_some_iff hnodup).mpr
      ⟨hg, hreports.name.trans (f.declaration_name .postgres)⟩
    unfold Plan.columnNamed Model.field?
    rw [hfields, List.find?_append, hfind, Option.some_or]
    exact Option.filter_some_pos Table.isColumn_shownField
  · obtain ⟨hg, hcolumn⟩ := Model.mem_columns_iff.mp hg
    rw [hfields] at hg
    rcases List.mem_append.mp hg with hg | hg
    · have hname : g.name ∈ m.columns.map Field.name := hnames ▸ List.mem_map_of_mem hg
      obtain ⟨f, hf, hfname⟩ := List.mem_map.mp hname
      exact ⟨f, (Plan.columnNamed_eq_some_iff hdistinct).mpr ⟨hf, hfname⟩⟩
    · rw [hmore g hg] at hcolumn
      cases hcolumn

end Schema.Deployed

/-- **There and back**: a schema that compiles is deployed, the tables are read from the catalog,
and nothing is left to do.  Counting up is for keys of integers, a unique constraint is on two
columns or more, numbers are written with digits and a point, and what looks like a join table is
one. -/
theorem Schema.Compiles.roundTrip {S : Schema} {s : Snapshot} {stmts : List Statement}
    (hS : S.Compiles) (hplan : (plan .postgres S none).outcome = .ok stmts) (hs : s.Reports stmts)
    (hcounts : ∀ m ∈ S.models, ∀ f ∈ m.columns, f.isAutoincrement →
      f.isPrimaryKey ∧ f.scalar? = some .int ∧ f.isArray = false)
    (huniques : ∀ m ∈ S.models, ∀ columns ∈ m.uniques, ∃ a ∈ columns, ∃ b ∈ columns, a ≠ b)
    (hdecimal : ∀ m ∈ S.models, ∀ f ∈ m.columns, ∀ x, f.default = some (.literal (.float x)) →
      ∀ c ∈ x.text.toList, c.isDigit = true ∨ c = '.' ∨ c = '-')
    (hjoins : ∀ j ∈ S.joinTables, j.name ∉ S.modelNames)
    (hlike : ∀ m ∈ S.models, ¬ m.IsLinkLike) :
    ∃ shown, (s.schema .postgres).outcome = .ok shown ∧
      (plan .postgres S (some shown)).outcome = .ok [] := by
  have hdeployed : S.Deployed s := hS.deployed hplan hs
  obtain ⟨shown, hshown⟩ := hdeployed.exists_schema
  have hnames : ∀ name, name ∈ S.modelNames ↔ name ∈ shown.modelNames := fun name => by
    rw [Snapshot.mem_modelNames_schema_iff hshown]
    constructor
    · intro hname
      obtain ⟨m, hm, rfl⟩ := List.mem_map.mp hname
      exact ⟨hdeployed.mem_names hname,
        fun hfolds => hlike m hm (hdeployed.isLinkLike_of_links hm hfolds.links)⟩
    · rintro ⟨hname, hfolds⟩
      obtain ⟨t, ht, rfl⟩ := List.mem_map.mp hname
      -- a join table is not seen: it links two models that are no links, and is folded
      rcases hdeployed.only t ht with ⟨m, hm, htm⟩ | ⟨j, hj, htj⟩
      · exact htm ▸ List.mem_map_of_mem hm
      · exact absurd (hdeployed.folds_join hj (hjoins j hj) hlike) (htj ▸ hfolds)
  refine ⟨shown, hshown, ?_⟩
  rw [hdeployed.plan_outcome shown, Plan.migration_eq_nil_iff.mpr
    ⟨hnames, fun m hm before hbefore => ?_⟩]
  obtain ⟨hbefore, hname⟩ := Schema.mem_of_model? hbefore
  refine hdeployed.tableChanges_eq_nil hshown hm hbefore hname (fun f hf => ⟨fun hauto => ?_, ?_⟩)
    (fun f hf hid => ?_) fun f hf hmem => ?_
  · exact Bool.and_eq_true_iff.mpr ⟨(hcounts m hm f hf hauto).1, hauto⟩
  · exact hdecimal m hm f hf
  · exact (hcounts m hm f hf (Bool.and_eq_true_iff.mp hid).2).2
  · obtain ⟨a, ha, b, hb, hab⟩ := huniques m hm _ hmem
    exact hab ((List.mem_singleton.mp ha).trans (List.mem_singleton.mp hb).symm)

/-- The tables of users with tags, as the catalog reports them. -/
def taggedUsersDeployed : Snapshot :=
  [{ name := "user"
     columns :=
       [{ name := "id", dataType := "integer", elementType := "int4", isNullable := false
          default := some "nextval('user_id_seq'::regclass)" },
        { name := "name", dataType := "character varying", elementType := "varchar"
          default := some "'it''s'::character varying" },
        { name := "rate", dataType := "real", elementType := "float4", default := some "1.5" }]
     constraints := [{ name := "user_pkey", kind := "PRIMARY KEY", columns := ["id"] }] },
   { name := "tag"
     columns := [{ name := "id", dataType := "integer", elementType := "int4", isNullable := false }]
     constraints := [{ name := "tag_pkey", kind := "PRIMARY KEY", columns := ["id"] }] },
   { name := "_tag_user"
     columns :=
       [{ name := "A_id", dataType := "integer", elementType := "int4", isNullable := false },
        { name := "B_id", dataType := "integer", elementType := "int4", isNullable := false }]
     constraints :=
       [{ name := "_tag_user_A_id_fkey", kind := "FOREIGN KEY", columns := ["A_id"]
          table := some "tag", targets := some ["id"] },
        { name := "_tag_user_B_id_fkey", kind := "FOREIGN KEY", columns := ["B_id"]
          table := some "user", targets := some ["id"] },
        { name := "_tag_user_A_id_B_id_key", kind := "UNIQUE", columns := ["A_id", "B_id"] }] }]

/-- The tables of users and tags are reported of their script. -/
theorem taggedUsers_reported : ∃ stmts, (plan .postgres taggedUsers none).outcome = .ok stmts ∧
    taggedUsersDeployed.Reports stmts := by
  refine ⟨_, by with_unfolding_all rfl, .of_forall₂ (by decide) ?_⟩
  refine .cons ⟨_, rfl, ?user⟩ (.cons ⟨_, rfl, ?tag⟩ (.cons ⟨_, rfl, ?join⟩ .nil))
  case user =>
    refine ⟨.cons ⟨rfl, ?_, rfl, "'user_id_seq'::regclass)", rfl⟩
      (.cons ⟨rfl, ?_, rfl, "character varying", by decide, rfl⟩
        (.cons ⟨rfl, ?_, rfl, ?_⟩ .nil)), fun c => Iff.rfl⟩
    · decide +kernel
    · decide +kernel
    · decide +kernel
    · exact congrArg some (by decide +kernel)
  case tag => exact ⟨.cons ⟨rfl, by decide +kernel, rfl, rfl⟩ .nil, fun c => Iff.rfl⟩
  case join =>
    refine ⟨.cons ⟨rfl, ?_, rfl, reportsDefault_none ?_ rfl⟩
      (.cons ⟨rfl, ?_, rfl, reportsDefault_none ?_ rfl⟩ .nil), fun c => Iff.rfl⟩
    · decide +kernel
    · decide +kernel
    · decide +kernel
    · decide +kernel

/-- **Users and tags** come back from their tables, and nothing is left to do. -/
theorem taggedUsers_roundTrip : ∃ shown,
    (taggedUsersDeployed.schema .postgres).outcome = .ok shown ∧
      (plan .postgres taggedUsers (some shown)).outcome = .ok [] := by
  obtain ⟨stmts, hplan, hreports⟩ := taggedUsers_reported
  have hkeyless : ∀ m ∈ taggedUsers.models, ∀ f ∈ m.fields, f.foreignKeyTarget? = none := by
    decide +kernel
  have hdigits : ∀ m ∈ taggedUsers.models, ∀ f ∈ m.columns, f.default.all fun d =>
      match d with
      | .literal (.float x) => x.text.toList.all fun c => c.isDigit || c == '.' || c == '-'
      | _ => true := by
    decide +kernel
  refine taggedUsers_compiles.roundTrip hplan hreports (by decide +kernel) (by decide +kernel)
    (fun m hm f hf x hx c hc => ?_) (by decide +kernel)
    fun m hm => Model.not_isLinkLike (hkeyless m hm)
  have hall := hdigits m hm f hf
  rw [hx] at hall
  simpa [or_assoc] using List.all_eq_true.mp hall c hc

end Schemata
