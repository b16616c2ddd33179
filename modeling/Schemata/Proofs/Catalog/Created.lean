import Schemata.Proofs.Catalog.Fields
import Schemata.Proofs.Database.Alteration
import Schemata.Proofs.Plan.References
import Schemata.Proofs.Schema.Compiled

/-!
# Proofs — catalogs — the tables of a fresh script

What a snapshot shows after the fresh script of a schema (`Schema.Deployed`).  Its tables are those
of the models and the join tables.  The foreign keys of a model's table are those of the model, so
a table that is a link comes from a model that looks like one (`Model.IsLinkLike`) or is a join
table; and a join table between models that do not look like links is folded
(`Schema.Deployed.folds_join`).

Whatever the schema, the snapshot is read without a fault (`Schema.Deployed.exists_schema`).
-/

namespace Schemata

/-! ### Models that look like links -/

namespace Model

/-- The model looks like a link: its foreign keys are on two columns, and every other column is a
key or only tells of times. -/
structure IsLinkLike (m : Model) : Prop where
  keys : ∃ a b, a ≠ b ∧ ∀ key, (∃ target, m.HoldsKey key target) ↔ key = a ∨ key = b
  linking : ∀ f ∈ m.columns,
    (∃ target, m.HoldsKey f.name target) ∨ f.isPrimaryKey ∨ f.name ∈ Table.bookkeeping

variable {m : Model} {d : Dialect}

/-- A model without foreign keys does not look like a link. -/
theorem not_isLinkLike (h : ∀ f ∈ m.fields, f.foreignKeyTarget? = none) : ¬ m.IsLinkLike := by
  rintro ⟨⟨a, b, -, hkeys⟩, -⟩
  obtain ⟨target, f, hf, htarget, -⟩ := (hkeys a).mpr (.inl rfl)
  rw [h f hf] at htarget
  cases htarget

/-- The column that is declared under the name of a field is the field's. -/
theorem exists_declaration_iff (h : (m.fields.map Field.name).Nodup) {f : Field}
    (hf : f ∈ m.columns) {P : ColumnDefinition → Prop} :
    (∃ c ∈ columnsOf (m.elements d), c.name = f.name ∧ P c) ↔ P (f.declaration d) := by
  rw [columnsOf_elements]
  constructor
  · rintro ⟨c, hc, hname, hp⟩
    obtain ⟨g, hg, rfl⟩ := List.mem_map.mp hc
    have hgf : g = f :=
      List.inj_on_of_nodup_map (columns_nodup h) hg hf ((g.declaration_name d).symm.trans hname)
    rwa [← hgf]
  · exact fun hp => ⟨_, List.mem_map_of_mem hf, f.declaration_name d, hp⟩

end Model

/-! ### Links -/

/-- A table with foreign keys on two columns and nothing else, to two known tables that are no
links, is folded. -/
theorem Snapshot.folds_of_refers {s : Snapshot} {t : Table} (ht : t ∈ s) {a b : String}
    (hab : a ≠ b) (hkeys : ∀ key, (∃ target, t.Refers key target) ↔ key = a ∨ key = b)
    (hlinking : ∀ c ∈ t.columns, (∃ target, t.Refers c.name target) ∨ c.name ∈ t.primaryKey ∨
      c.name ∈ Table.bookkeeping)
    (htargets : ∀ key target, t.Refers key target →
      target ∈ s.names ∧ t.name ≠ target ∧ ¬ s.Links target) : s.Folds t.name := by
  -- a column counts once among the keys, so there are two of them, in either order
  have hperm : (t.foreignKeys.map Prod.fst).Perm [a, b] := by
    refine (List.perm_ext_iff_of_nodup t.keyColumns_nodup (by simp [hab])).mpr fun key => ?_
    rw [Table.mem_keyColumns_iff, hkeys]
    simp
  obtain ⟨⟨x, left⟩, ⟨y, right⟩, hpair⟩ := List.length_eq_two.mp
    ((List.length_map Prod.fst).symm.trans hperm.length_eq)
  have hleft : t.Refers x left := Table.refers_of_mem_foreignKeys (by simp [hpair])
  have hright : t.Refers y right := Table.refers_of_mem_foreignKeys (by simp [hpair])
  obtain ⟨hknown, hother, hlink⟩ := htargets x left hleft
  obtain ⟨hknown', hother', hlink'⟩ := htargets y right hright
  refine ⟨t, ht, rfl, left, right,
    ⟨⟨x, y, hpair⟩, fun c hc => ?_, ⟨hknown, hknown'⟩, hother, hother'⟩, hlink, hlink'⟩
  rw [Table.mem_keyColumns_iff]
  exact hlinking c hc

/-! ### Join tables -/

/-- The columns for the two ends of a join table have different names. -/
theorem Plan.joinColumn_names_ne (left right : String) : "A_" ++ left ≠ "B_" ++ right := fun h => by
  have hchars := congrArg String.toList h
  rw [String.toList_append, String.toList_append] at hchars
  exact absurd (List.cons.inj hchars).1 (by decide)

namespace Schema

/-- A join table is between models. -/
theorem IsStrict.ends_mem {S : Schema} (h : S.IsStrict) {j : JoinTable} (hj : j ∈ S.joinTables) :
    j.left ∈ S.modelNames ∧ j.right ∈ S.modelNames := by
  obtain ⟨⟨l, r⟩, hpair, rfl⟩ := List.mem_map.mp hj
  obtain ⟨m, hm, f, hf, ⟨⟨key, hrel⟩, -⟩, heq⟩ := mem_pairs_iff.mp hpair
  have hname : m.name ∈ S.modelNames := List.mem_map_of_mem hm
  have htarget := h.targets m hm f hf (by rw [hrel]; rfl)
  rcases orderedPair_eq_or m.name f.typeName with h | h <;> rw [h] at heq <;> cases heq
  · exact ⟨hname, htarget⟩
  · exact ⟨htarget, hname⟩

/-- A foreign key of a model leads to a model. -/
theorem IsStrict.target_mem {S : Schema} (h : S.IsStrict) {m : Model} (hm : m ∈ S.models)
    {key target : String} (hkey : m.HoldsKey key target) : target ∈ S.modelNames := by
  obtain ⟨f, hf, htarget, -⟩ := hkey
  obtain ⟨r, -, hr, -, -, -, rfl⟩ := Field.foreignKeyTarget?_eq_some_iff.mp htarget
  exact h.targets m hm f hf (by rw [hr]; rfl)

theorem IsStrict.ne_empty {S : Schema} (h : S.IsStrict) {name : String}
    (hname : name ∈ S.modelNames) : name ≠ "" := by
  obtain ⟨m, hm, rfl⟩ := List.mem_map.mp hname
  exact (h.names m hm).1

/-- The columns of a join table are one for each end. -/
theorem mem_columnsOf_linkElements_iff {d : Dialect} {S : Schema} {j : JoinTable}
    {c : ColumnDefinition} :
    c ∈ columnsOf (Plan.linkElements d S j) ↔
      c = { name := "A_" ++ (Plan.keyOf d S j.left).1
            type := (Plan.keyOf d S j.left).2, isNotNull := true } ∨
      c = { name := "B_" ++ (Plan.keyOf d S j.right).1
            type := (Plan.keyOf d S j.right).2, isNotNull := true } := by
  rw [mem_columnsOf_iff]
  unfold Plan.linkElements Plan.joinColumn
  simp only [List.mem_cons, List.not_mem_nil, or_false, reduceCtorEq, TableElement.column.injEq]

/-! ### The tables of a schema -/

/-- The snapshot shows the tables that the schema's fresh script creates. -/
structure Deployed (S : Schema) (s : Snapshot) : Prop where
  strict : S.IsStrict
  fits : ∀ m ∈ S.models, m.Fits
  names : s.names.Nodup
  models : ∀ m ∈ S.models, ∃ t ∈ s, t.name = m.name ∧ t.Reports (m.elements .postgres)
  joins : ∀ j ∈ S.joinTables, ∃ t ∈ s, t.name = j.name ∧
    t.Reports (Plan.linkElements .postgres S j)
  only : ∀ t ∈ s, (∃ m ∈ S.models, t.name = m.name) ∨ ∃ j ∈ S.joinTables, t.name = j.name

/-- What is reported of a fresh script of a schema that compiles shows its tables. -/
theorem Compiles.deployed {S : Schema} {s : Snapshot} {stmts : List Statement} (hS : S.Compiles)
    (hplan : (plan .postgres S none).outcome = .ok stmts) (hs : s.Reports stmts) :
    S.Deployed s := by
  have hstrict : S.IsStrict := hS.isStrict
  obtain ⟨hfits, rfl⟩ := Plan.createAll_ok_iff.mp hplan
  -- the order in which tables are created leaves no model out
  have hall : ∀ m, m ∈ Plan.inOrder S S.modelNames ↔ m ∈ S.models := fun m => by
    rw [Plan.mem_inOrder_iff hstrict.distinct.models]
    exact and_iff_left_of_imp fun h => List.mem_map_of_mem h
  refine ⟨hstrict, fun m hm => hfits m ((hall m).mpr hm), hs.distinct, fun m hm => ?_,
    fun j hj => ?_, fun t ht => ?_⟩
  · refine hs.complete _ _ (List.mem_append_left _ ?_)
    exact List.mem_map.mpr ⟨m, (hall m).mpr hm, rfl⟩
  · refine hs.complete _ _ (List.mem_append_right _ ?_)
    exact List.mem_map.mpr ⟨j, hj, rfl⟩
  · obtain ⟨elements, h, -⟩ := hs.declared t ht
    rcases List.mem_append.mp h with h | h
    · obtain ⟨m, hm, heq⟩ := List.mem_map.mp h
      exact .inl ⟨m, (hall m).mp hm, (Statement.createTable.inj heq).1.symm⟩
    · obtain ⟨j, hj, heq⟩ := List.mem_map.mp h
      exact .inr ⟨j, hj, (Statement.createTable.inj heq).1.symm⟩

namespace Deployed

variable {S : Schema} {s : Snapshot} {t : Table} {m : Model} {j : JoinTable}

/-- A name has one table. -/
theorem eq_of_name (h : S.Deployed s) {t' : Table} (ht : t ∈ s) (ht' : t' ∈ s)
    (hname : t.name = t'.name) : t = t' :=
  List.inj_on_of_nodup_map h.names ht ht' hname

theorem reports_model (h : S.Deployed s) (hm : m ∈ S.models) (ht : t ∈ s)
    (hname : t.name = m.name) : t.Reports (m.elements .postgres) := by
  obtain ⟨t', ht', hname', hreports⟩ := h.models m hm
  rwa [h.eq_of_name ht ht' (hname.trans hname'.symm)]

theorem reports_join (h : S.Deployed s) (hj : j ∈ S.joinTables) (ht : t ∈ s)
    (hname : t.name = j.name) : t.Reports (Plan.linkElements .postgres S j) := by
  obtain ⟨t', ht', hname', hreports⟩ := h.joins j hj
  rwa [h.eq_of_name ht ht' (hname.trans hname'.symm)]

theorem mem_names (h : S.Deployed s) {name : String} (hname : name ∈ S.modelNames) :
    name ∈ s.names := by
  obtain ⟨m, hm, rfl⟩ := List.mem_map.mp hname
  obtain ⟨t, ht, hname, -⟩ := h.models m hm
  exact hname ▸ List.mem_map_of_mem ht

/-- The foreign keys of a model's table are the model's. -/
theorem refers_model_iff (h : S.Deployed s) (hm : m ∈ S.models) (ht : t ∈ s)
    (hname : t.name = m.name) {key target : String} :
    t.Refers key target ↔ m.HoldsKey key target := by
  rw [(h.reports_model hm ht hname).refers_iff, Model.foreignKey_mem_elements_iff]
  exact and_iff_right_of_imp fun hkey => h.strict.ne_empty (h.strict.target_mem hm hkey)

/-- The foreign keys of a join table are one for each end. -/
theorem refers_join_iff (h : S.Deployed s) (hj : j ∈ S.joinTables) (ht : t ∈ s)
    (hname : t.name = j.name) {key target : String} :
    t.Refers key target ↔
      key = "A_" ++ (Plan.keyOf .postgres S j.left).1 ∧ target = j.left ∨
      key = "B_" ++ (Plan.keyOf .postgres S j.right).1 ∧ target = j.right := by
  obtain ⟨hleft, hright⟩ := h.strict.ends_mem hj
  have hl := h.strict.ne_empty hleft
  have hr := h.strict.ne_empty hright
  rw [(h.reports_join hj ht hname).refers_iff]
  unfold Plan.linkElements Plan.joinColumn
  simp only [List.mem_cons, List.not_mem_nil, or_false, reduceCtorEq, false_or,
    TableElement.foreignKey.injEq]
  constructor
  · rintro ⟨-, k, cascades, ⟨rfl, rfl, -, -⟩ | ⟨rfl, rfl, -, -⟩⟩
    · exact .inl ⟨rfl, rfl⟩
    · exact .inr ⟨rfl, rfl⟩
  · rintro (⟨rfl, rfl⟩ | ⟨rfl, rfl⟩)
    · exact ⟨hl, _, _, .inl ⟨rfl, rfl, rfl, rfl⟩⟩
    · exact ⟨hr, _, _, .inr ⟨rfl, rfl, rfl, rfl⟩⟩

/-- Every foreign key leads to the table of a model. -/
theorem target_mem (h : S.Deployed s) (ht : t ∈ s) {key target : String}
    (hrefers : t.Refers key target) : target ∈ S.modelNames := by
  rcases h.only t ht with ⟨m, hm, hname⟩ | ⟨j, hj, hname⟩
  · exact h.strict.target_mem hm ((h.refers_model_iff hm ht hname).mp hrefers)
  · obtain ⟨hleft, hright⟩ := h.strict.ends_mem hj
    rcases (h.refers_join_iff hj ht hname).mp hrefers with ⟨-, rfl⟩ | ⟨-, rfl⟩
    · exact hleft
    · exact hright

/-- The primary keys of a model's table are the model's. -/
theorem mem_primaryKey_iff (h : S.Deployed s) (hm : m ∈ S.models) (ht : t ∈ s)
    (hname : t.name = m.name) {f : Field} (hf : f ∈ m.columns) :
    f.name ∈ t.primaryKey ↔ f.isPrimaryKey := by
  rw [(h.reports_model hm ht hname).mem_primaryKey_iff,
    Model.exists_declaration_iff (h.strict.distinct.fields m hm) hf, f.isKey_declaration]

/-- Each column of a model's table is reported of one of the model's. -/
theorem exists_field (h : S.Deployed s) (hm : m ∈ S.models) (ht : t ∈ s)
    (hname : t.name = m.name) {r : Column} (hr : r ∈ t.columns) :
    ∃ f ∈ m.columns, r.Reports (f.declaration .postgres) := by
  have hcolumns := (h.reports_model hm ht hname).columns
  rw [Model.columnsOf_elements] at hcolumns
  obtain ⟨c, hc, hreports⟩ := exists_of_forall₂ hcolumns hr
  obtain ⟨f, hf, rfl⟩ := List.mem_map.mp hc
  exact ⟨f, hf, hreports⟩

/-- Each column of a model is reported. -/
theorem exists_column (h : S.Deployed s) (hm : m ∈ S.models) (ht : t ∈ s)
    (hname : t.name = m.name) {f : Field} (hf : f ∈ m.columns) :
    ∃ r ∈ t.columns, r.Reports (f.declaration .postgres) := by
  have hcolumns := (h.reports_model hm ht hname).columns.flip
  rw [Model.columnsOf_elements] at hcolumns
  exact exists_of_forall₂ hcolumns (List.mem_map_of_mem hf)

/-! ### Links among the tables -/

/-- A table that is a link, if it is a model's, comes from a model that looks like one. -/
theorem isLinkLike_of_links (h : S.Deployed s) (hm : m ∈ S.models) (hlinks : s.Links m.name) :
    m.IsLinkLike := by
  obtain ⟨t, ht, hname, left, right, ⟨a, b, hpair⟩, hlinking, -, -⟩ := hlinks
  have hkeys : t.foreignKeys.map Prod.fst = [a, b] := by rw [hpair]; rfl
  have hholds : ∀ key, (∃ target, m.HoldsKey key target) ↔ key = a ∨ key = b := fun key => by
    rw [← exists_congr fun target => h.refers_model_iff hm ht hname, ← Table.mem_keyColumns_iff,
      hkeys]
    simp
  refine ⟨⟨a, b, ?_, hholds⟩, fun f hf => ?_⟩
  · have hnodup := t.keyColumns_nodup
    rw [hkeys] at hnodup
    simpa using hnodup
  · obtain ⟨r, hr, hreports⟩ := h.exists_column hm ht hname hf
    have hrname : r.name = f.name := hreports.name.trans (f.declaration_name .postgres)
    have hcases := hlinking r hr
    rw [hrname, Table.mem_keyColumns_iff, h.mem_primaryKey_iff hm ht hname hf] at hcases
    simpa only [h.refers_model_iff hm ht hname] using hcases

/-- A model that looks like a link, between others that do not, has its table folded. -/
theorem folds_model (h : S.Deployed s) (hm : m ∈ S.models) (hlike : m.IsLinkLike)
    (htargets : ∀ key target, m.HoldsKey key target → target ≠ m.name ∧
      ∀ n ∈ S.models, n.name = target → ¬ n.IsLinkLike) : s.Folds m.name := by
  obtain ⟨t, ht, hname, hreports⟩ := h.models m hm
  obtain ⟨⟨a, b, hab, hkeys⟩, hlinking⟩ := hlike
  rw [← hname]
  refine Snapshot.folds_of_refers ht hab (fun key => ?_) (fun r hr => ?_) fun key target hkey => ?_
  · rw [exists_congr fun target => h.refers_model_iff hm ht hname]
    exact hkeys key
  · obtain ⟨f, hf, hreports⟩ := h.exists_field hm ht hname hr
    have hrname : r.name = f.name := hreports.name.trans (f.declaration_name .postgres)
    rw [hrname, h.mem_primaryKey_iff hm ht hname hf,
      exists_congr fun target => h.refers_model_iff hm ht hname]
    exact hlinking f hf
  · have hmem := h.target_mem ht hkey
    rw [h.refers_model_iff hm ht hname] at hkey
    obtain ⟨hother, hnot⟩ := htargets key target hkey
    refine ⟨h.mem_names hmem, fun heq => hother (heq.symm.trans hname), fun hlinks => ?_⟩
    obtain ⟨n, hn, rfl⟩ := List.mem_map.mp hmem
    exact hnot n hn rfl (h.isLinkLike_of_links hn hlinks)

/-- A join table between models that do not look like links is folded. -/
theorem folds_join (h : S.Deployed s) (hj : j ∈ S.joinTables) (hname : j.name ∉ S.modelNames)
    (hlike : ∀ m ∈ S.models, ¬ m.IsLinkLike) : s.Folds j.name := by
  obtain ⟨t, ht, htname, hreports⟩ := h.joins j hj
  have hrefers := fun key target => @refers_join_iff S s t j h hj ht htname key target
  -- the two columns differ even where a model is linked to itself
  have hab : "A_" ++ (Plan.keyOf .postgres S j.left).1 ≠
      "B_" ++ (Plan.keyOf .postgres S j.right).1 := Plan.joinColumn_names_ne _ _
  have hkeys : ∀ key, (∃ target, t.Refers key target) ↔
      key = "A_" ++ (Plan.keyOf .postgres S j.left).1 ∨
        key = "B_" ++ (Plan.keyOf .postgres S j.right).1 := fun key => by
    simp only [hrefers, exists_or, exists_and_left, exists_eq, and_true]
  rw [← htname]
  refine Snapshot.folds_of_refers ht hab hkeys (fun r hr => .inl ?_) fun key target hkey => ?_
  · obtain ⟨c, hc, hreports⟩ := exists_of_forall₂ hreports.columns hr
    rw [hkeys, hreports.name]
    rcases mem_columnsOf_linkElements_iff.mp hc with rfl | rfl
    · exact .inl rfl
    · exact .inr rfl
  · have hmem := h.target_mem ht hkey
    refine ⟨h.mem_names hmem, fun heq => hname (htname ▸ heq ▸ hmem), fun hlinks => ?_⟩
    obtain ⟨n, hn, rfl⟩ := List.mem_map.mp hmem
    exact hlike n hn (h.isLinkLike_of_links hn hlinks)

/-! ### The schema that is shown -/

/-- Every table is read as a model. -/
theorem exists_model (h : S.Deployed s) (ht : t ∈ s) : ∃ m, t.model .postgres = .ok m := by
  have hfields : ∀ r ∈ t.columns, ∃ f, t.columnField .postgres r = .ok f := by
    intro r hr
    rcases h.only t ht with ⟨m, hm, hname⟩ | ⟨j, hj, hname⟩
    · obtain ⟨f, hf, hreports⟩ := h.exists_field hm ht hname hr
      obtain ⟨x, hx⟩ := Field.isColumn_iff.mp (Model.isColumn_of_mem_columns hf)
      obtain ⟨d, hd, -⟩ := Table.columnField_reported hreports hx (h.fits m hm f hf)
        (h.strict.defaults m hm f (Model.mem_columns_iff.mp hf).1)
      exact ⟨_, hd⟩
    · obtain ⟨c, hc, hreports⟩ := exists_of_forall₂ (h.reports_join hj ht hname).columns hr
      refine Table.columnField_of_default hreports ?_
      rcases mem_columnsOf_linkElements_iff.mp hc with rfl | rfl <;> rfl
  obtain ⟨fields, hforall⟩ := exists_forall₂ hfields
  exact ⟨_, Table.model_ok_iff.mpr ⟨fields, hforall, rfl⟩⟩

/-- **What is deployed is read** without a fault. -/
theorem exists_schema (h : S.Deployed s) : ∃ shown, (s.schema .postgres).outcome = .ok shown := by
  obtain ⟨models, hmodels⟩ := exists_forall₂ fun t ht => h.exists_model ht
  exact ⟨_, Snapshot.schema_ok_iff.mpr ⟨models, Except.mapM_ok_iff.mpr hmodels, rfl⟩⟩

/-- The plan against any schema ends well: every default fits its column, as it did in the fresh
script. -/
theorem plan_outcome (h : S.Deployed s) (previous : Schema) :
    (plan .postgres S (some previous)).outcome = .ok (Plan.migration .postgres S previous) := by
  refine Plan.diff_ok_iff.mpr ⟨⟨fun m hm => ?_, fun m hm before _ f hf => ?_⟩, rfl⟩
  · exact h.fits m ((Plan.mem_inOrder_iff h.strict.distinct.models).mp hm).1
  · have hfits : f.Fits := h.fits m hm f hf
    unfold Plan.ReachFits
    split
    · exact fun _ => hfits
    · exact hfits

end Deployed

end Schema

end Schemata
