import Mathlib.Data.Multiset.MapFold
import Schemata.Proofs.Plan.Statements

/-!
# Proofs — plans that change nothing

A plan is empty exactly when the deployed schema and the desired one are the same to a database:
the same models, with the same columns, of the same types, nullability, defaults and uniqueness
(`Schema.SameTables`, `Plan.planScript_isEmpty_iff`).  Where they are, the plan is also made, since
no default is looked at; so a schema that is deployed needs nothing, be its defaults ill-typed.

* `Plan.changes_eq_nil_iff` — one column, in each of the ways in which dialects alter it.
* `Plan.tableChanges_eq_nil_iff`, `Plan.migration_eq_nil_iff` — one table, and a whole migration.
* `Schema.sameTables_of_outline` — what a plan does not look at: the order of models and fields,
  places in the source, relations, composite uniqueness, and shapes.
-/

namespace Schemata

/-! ### Columns -/

/-- Two columns that a database holds alike. -/
structure Field.Alike (d : Dialect) (old new : Field) : Prop where
  type : old.storedType d = new.storedType d
  isNotNull : old.isNotNull = new.isNotNull
  default : Default.sameOption old.default new.default = true
  isUnique : old.hasUniqueConstraint = new.hasUniqueConstraint

/-- What two columns that are held alike have in common. -/
theorem Field.alike_iff {d : Dialect} {f g : Field} (hf : f.isColumn) (hg : g.isColumn) :
    Field.Alike d f g ↔ f.isNotNull = g.isNotNull ∧ f.columnType d = g.columnType d ∧
      Default.sameOption f.default g.default ∧ f.hasUniqueConstraint = g.hasUniqueConstraint := by
  rw [columnType_ok_iff.mpr ⟨hf, rfl⟩, columnType_ok_iff.mpr ⟨hg, rfl⟩, Except.ok.injEq]
  exact ⟨fun ⟨htype, hnull, hdefault, hunique⟩ => ⟨hnull, htype, hdefault, hunique⟩,
    fun ⟨hnull, htype, hdefault, hunique⟩ => ⟨htype, hnull, hdefault, hunique⟩⟩

namespace Plan

variable {d : Dialect} {table : String} {old new : Field}

theorem alterUniqueness_eq_nil_iff {add : Statement} :
    alterUniqueness add old new = [] ↔ old.hasUniqueConstraint = new.hasUniqueConstraint := by
  unfold alterUniqueness
  cases old.hasUniqueConstraint <;> cases new.hasUniqueConstraint <;> simp

theorem defaultChanges_eq_nil_iff :
    defaultChanges d table old new = [] ↔ Default.sameOption old.default new.default = true := by
  unfold defaultChanges setsDefault
  cases Default.sameOption old.default new.default <;>
    cases old.isAutoincrement || new.isAutoincrement <;> simp

/-- A key is weakened only by another nullability. -/
theorem weakensKey_eq_false (h : old.isNotNull = new.isNotNull) : weakensKey old new = false := by
  simp [weakensKey, h]

/-- Where columns can be altered, nullability and type are told of by one statement or by two, but
never by none. -/
theorem nullabilityAndType_eq_nil_iff :
    (alterNullability d table old new = [] ∧ restates d old new = false ∧
      typeChanges d table old new = []) ↔
    old.isNotNull = new.isNotNull ∧ old.storedType d = new.storedType d := by
  constructor
  · rintro ⟨hnull, hrestates, htype⟩
    have hkey : weakensKey old new = false := by
      by_contra h
      simp [alterNullability, Bool.eq_true_of_not_eq_false h] at hnull
    by_cases hd : d = .mysql
    · simpa [restates, hd, hkey, and_comm] using hrestates
    · exact ⟨by simpa [alterNullability, hkey, hd] using hnull,
        by simpa [typeChanges, hd] using htype⟩
  · rintro ⟨hnull, htype⟩
    simp [alterNullability, restates, typeChanges, weakensKey_eq_false hnull, hnull, htype]

/-- **In place**, nothing is said of a column exactly if it is alike. -/
theorem inPlace_eq_nil_iff : inPlace d table old new = [] ↔ Field.Alike d old new := by
  have hrestated : (if restates d old new then [Statement.modifyColumn table (new.restated d)]
      else []) = [] ↔ restates d old new = false := by
    cases restates d old new <;> simp
  unfold inPlace
  simp only [List.append_eq_nil_iff, hrestated, defaultChanges_eq_nil_iff,
    alterUniqueness_eq_nil_iff]
  constructor
  · rintro ⟨⟨⟨⟨hnull, hrestates⟩, hdefault⟩, htype⟩, hunique⟩
    obtain ⟨hnull, htype⟩ := nullabilityAndType_eq_nil_iff.mp ⟨hnull, hrestates, htype⟩
    exact ⟨htype, hnull, hdefault, hunique⟩
  · intro h
    obtain ⟨hnull, hrestates, htype⟩ := nullabilityAndType_eq_nil_iff.mpr ⟨h.isNotNull, h.type⟩
    exact ⟨⟨⟨⟨hnull, hrestates⟩, h.default⟩, htype⟩, h.isUnique⟩

/-- Nothing would have to be altered exactly if default and type stay, and nullability does, or is
that of a key that would be weakened. -/
theorem unalterable_eq_nil_iff :
    unalterable d old new = [] ↔ (old.isNotNull = new.isNotNull ∨ weakensKey old new = true) ∧
      Default.sameOption old.default new.default = true ∧
      old.storedType d = new.storedType d := by
  unfold unalterable
  simp only [List.append_eq_nil_iff, and_assoc]
  refine and_congr ?_ (and_congr ?_ ?_)
  · by_cases h : old.isNotNull = new.isNotNull <;> simp [h]
  · cases Default.sameOption old.default new.default <;> simp
  · by_cases h : old.storedType d = new.storedType d <;> simp [h]

/-- **Where a table would have to be rebuilt**, nothing is said of a column exactly if it is alike.
-/
theorem rebuilding_eq_nil_iff : rebuilding d table old new = [] ↔ Field.Alike d old new := by
  have hkey : (if weakensKey old new then [Statement.warning (.keyMayNotBeNull new.name)]
      else []) = [] ↔ weakensKey old new = false := by
    cases weakensKey old new <;> simp
  have htold : (if (unalterable d old new).isEmpty then []
      else [Statement.warning (.unalterable (unalterable d old new) table new.name)]) = [] ↔
      unalterable d old new = [] := by
    cases unalterable d old new <;> simp
  unfold rebuilding
  rw [List.append_eq_nil_iff, List.append_eq_nil_iff, hkey, htold, unalterable_eq_nil_iff,
    alterUniqueness_eq_nil_iff]
  constructor
  · rintro ⟨⟨hweak, hnull, hdefault, htype⟩, hunique⟩
    exact ⟨htype, hnull.resolve_right (by simp [hweak]), hdefault, hunique⟩
  · intro h
    exact ⟨⟨weakensKey_eq_false h.isNotNull, .inl h.isNotNull, h.default, h.type⟩, h.isUnique⟩

/-- **A column that is held alike is not changed**, and one that is not alike is. -/
theorem changes_eq_nil_iff : changes d table old new = [] ↔ Field.Alike d old new := by
  unfold changes
  split
  · exact rebuilding_eq_nil_iff
  · exact inPlace_eq_nil_iff

/-- The default of a column that is held alike is not looked at. -/
theorem not_writes_of_alike (h : Field.Alike d old new) : ¬ Writes d old new := by
  have hrestates : restates d old new = false := by
    simp [restates, weakensKey_eq_false h.isNotNull, h.isNotNull, h.type]
  have hset : setsDefault old new = false := by simp [setsDefault, h.default]
  unfold Writes
  split
  · simp [h.default]
  · simp [hrestates, hset]

/-! ### Tables -/

/-- **A table is not altered** exactly if its columns are those that are wanted, and are held
alike. -/
theorem tableChanges_eq_nil_iff {before after : Model} :
    tableChanges d before after = [] ↔
      (∀ f ∈ after.columns, ∃ old, columnNamed before f.name = some old ∧ Field.Alike d old f) ∧
        ∀ f ∈ before.columns, ∃ new, columnNamed after f.name = some new := by
  unfold tableChanges droppedColumns
  rw [List.append_eq_nil_iff, List.flatMap_eq_nil_iff, List.map_eq_nil_iff, List.filter_eq_nil_iff]
  refine and_congr (forall₂_congr fun f _ => ?_) (forall₂_congr fun f _ => ?_)
  · unfold reach
    cases columnNamed before f.name with
    | none => simp
    | some old => simp [changes_eq_nil_iff]
  · cases columnNamed after f.name <;> simp

/-- No table is created exactly if every wanted model is deployed. -/
theorem inOrder_added_eq_nil_iff {desired previous : Schema} :
    inOrder desired (added desired previous) = [] ↔
      ∀ name ∈ desired.modelNames, name ∈ previous.modelNames := by
  have hperm : ((inOrder desired (added desired previous)).map Model.name).Perm
      (added desired previous) := map_name_inOrder_perm fun name h => (mem_added_iff.mp h).1
  rw [← List.map_eq_nil_iff (f := Model.name), ← List.perm_nil, hperm.congr_left, List.perm_nil]
  simp [List.eq_nil_iff_forall_not_mem, mem_added_iff]

/-- **A migration is empty** exactly if the models are the same and no table is altered. -/
theorem migration_eq_nil_iff {desired previous : Schema} :
    migration d desired previous = [] ↔
      (∀ name, name ∈ desired.modelNames ↔ name ∈ previous.modelNames) ∧
        ∀ m ∈ desired.models, ∀ before, previous.model? m.name = some before →
          tableChanges d before m = [] := by
  have hdropped : dropOrder desired previous = [] ↔
      ∀ name ∈ previous.modelNames, name ∈ desired.modelNames := by
    simp [List.eq_nil_iff_forall_not_mem, mem_dropOrder_iff]
  have hkept : desired.models.flatMap (kept d previous) = [] ↔ ∀ m ∈ desired.models, ∀ before,
      previous.model? m.name = some before → tableChanges d before m = [] := by
    rw [List.flatMap_eq_nil_iff]
    refine forall₂_congr fun m _ => ?_
    unfold kept
    cases previous.model? m.name with
    | none => simp
    | some before => simp
  unfold migration
  rw [List.append_eq_nil_iff, List.append_eq_nil_iff, List.map_eq_nil_iff, List.map_eq_nil_iff,
    inOrder_added_eq_nil_iff, hdropped, hkept]
  constructor
  · rintro ⟨⟨hnew, hkept⟩, hgone⟩
    exact ⟨fun name => ⟨hnew name, hgone name⟩, hkept⟩
  · rintro ⟨hnames, hkept⟩
    exact ⟨⟨fun name => (hnames name).mp, hkept⟩, fun name => (hnames name).mpr⟩

end Plan

/-! ### Schemas -/

/-- Two schemas that are the same to a database of the dialect: they have the same models, a model
has the same columns in both, and a column is of the same type, nullability, default and
uniqueness. -/
structure Schema.SameTables (d : Dialect) (s t : Schema) : Prop where
  models : ∀ name, name ∈ s.modelNames ↔ name ∈ t.modelNames
  columns : ∀ m ∈ s.models, ∀ n ∈ t.models, m.name = n.name →
    ∀ name, name ∈ m.columns.map Field.name ↔ name ∈ n.columns.map Field.name
  held : ∀ m ∈ s.models, ∀ n ∈ t.models, m.name = n.name →
    ∀ f ∈ m.columns, ∀ g ∈ n.columns, f.name = g.name →
      f.isNotNull = g.isNotNull ∧ f.columnType d = g.columnType d ∧
        Default.sameOption f.default g.default ∧ f.hasUniqueConstraint = g.hasUniqueConstraint

/-- A field without what is no part of a column: its relation, its shape and its place. -/
def Field.bare (f : Field) : Field :=
  { f with relation := none, shape := none, position := .nowhere }

/-- What a plan looks at: models with their columns, in no order, without relations, composite
uniqueness, shapes and places. -/
def Schema.outline (s : Schema) : Multiset (String × Multiset Field) :=
  s.models.map fun m => (m.name, (m.columns.map Field.bare : Multiset Field))

namespace Plan

section

variable {d : Dialect} {desired previous : Schema}

/-- **A migration is empty** exactly if the two schemas are the same to a database. -/
theorem migration_eq_nil_iff_sameTables (hd : desired.Distinct) (hp : previous.Distinct) :
    migration d desired previous = [] ↔ previous.SameTables d desired := by
  rw [migration_eq_nil_iff]
  constructor
  · rintro ⟨hnames, htables⟩
    have hsame : ∀ m ∈ previous.models, ∀ n ∈ desired.models, m.name = n.name →
        tableChanges d m n = [] := fun m hm n hn hmn =>
      htables n hn m ((Schema.model?_eq_some_iff hp.models).mpr ⟨hm, hmn⟩)
    refine ⟨fun name => (hnames name).symm, fun m hm n hn hmn name => ?_,
      fun m hm n hn hmn f hf g hg hfg => ?_⟩ <;>
      obtain ⟨hreached, hkept⟩ := tableChanges_eq_nil_iff.mp (hsame m hm n hn hmn)
    · constructor
      · intro h
        obtain ⟨f, hf, rfl⟩ := List.mem_map.mp h
        obtain ⟨g, hg⟩ := hkept f hf
        obtain ⟨hg, hgf⟩ := (columnNamed_eq_some_iff (hd.fields n hn)).mp hg
        exact hgf ▸ List.mem_map_of_mem hg
      · intro h
        obtain ⟨g, hg, rfl⟩ := List.mem_map.mp h
        obtain ⟨f, hf, -⟩ := hreached g hg
        obtain ⟨hf, hfg⟩ := (columnNamed_eq_some_iff (hp.fields m hm)).mp hf
        exact hfg ▸ List.mem_map_of_mem hf
    · obtain ⟨old, hold, halike⟩ := hreached g hg
      rw [(columnNamed_eq_some_iff (hp.fields m hm)).mpr ⟨hf, hfg⟩] at hold
      cases hold
      exact (Field.alike_iff (Model.isColumn_of_mem_columns hf)
        (Model.isColumn_of_mem_columns hg)).mp halike
  · intro h
    refine ⟨fun name => (h.models name).symm, fun n hn m hm => ?_⟩
    obtain ⟨hm, hmn⟩ := Schema.mem_of_model? hm
    refine tableChanges_eq_nil_iff.mpr ⟨fun g hg => ?_, fun f hf => ?_⟩
    · obtain ⟨f, hf, hfg⟩ := List.mem_map.mp
        ((h.columns m hm n hn hmn g.name).mpr (List.mem_map_of_mem hg))
      exact ⟨f, (columnNamed_eq_some_iff (hp.fields m hm)).mpr ⟨hf, hfg⟩,
        (Field.alike_iff (Model.isColumn_of_mem_columns hf)
          (Model.isColumn_of_mem_columns hg)).mpr (h.held m hm n hn hmn f hf g hg hfg)⟩
    · obtain ⟨g, hg, hgf⟩ := List.mem_map.mp
        ((h.columns m hm n hn hmn f.name).mp (List.mem_map_of_mem hf))
      exact ⟨g, (columnNamed_eq_some_iff (hd.fields n hn)).mpr ⟨hg, hgf⟩⟩

/-- An empty migration looks at no default, so it is planned. -/
theorem diff_outcome_of_eq_nil (h : migration d desired previous = []) :
    (diff d desired previous).outcome = .ok [] := by
  obtain ⟨hnames, htables⟩ := migration_eq_nil_iff.mp h
  have hcreated : inOrder desired (added desired previous) = [] :=
    inOrder_added_eq_nil_iff.mpr fun name => (hnames name).mp
  refine diff_ok_iff.mpr ⟨⟨by simp [hcreated], fun m hm before hbefore f hf => ?_⟩, h.symm⟩
  obtain ⟨old, hold, halike⟩ :=
    (tableChanges_eq_nil_iff.mp (htables m hm before hbefore)).1 f hf
  unfold ReachFits
  rw [hold]
  exact fun hw => absurd hw (not_writes_of_alike halike)

end

end Plan

namespace Schema

variable {d : Dialect} {s t : Schema}

theorem SameTables.refl (h : s.Distinct) : s.SameTables d s := by
  have hmodel : ∀ m ∈ s.models, ∀ n ∈ s.models, m.name = n.name → m = n := fun m hm n hn =>
    List.inj_on_of_nodup_map h.models hm hn
  refine ⟨fun _ => .rfl, fun m hm n hn hmn name => ?_, fun m hm n hn hmn f hf g hg hfg => ?_⟩ <;>
    obtain rfl := hmodel m hm n hn hmn
  · rfl
  · obtain rfl := List.inj_on_of_nodup_map (Model.columns_nodup (h.fields m hm)) hf hg hfg
    exact ⟨rfl, rfl, Default.sameOption_self _, rfl⟩

/-- A model has the same columns in schemas of the same outline. -/
theorem columns_perm_of_outline (ht : t.Distinct) (h : s.outline = t.outline) {m n : Model}
    (hm : m ∈ s.models) (hn : n ∈ t.models) (hmn : m.name = n.name) :
    (m.columns.map Field.bare).Perm (n.columns.map Field.bare) := by
  have hmem : (m.name, (m.columns.map Field.bare : Multiset Field)) ∈ t.outline :=
    h ▸ Multiset.mem_coe.mpr (List.mem_map.mpr ⟨m, hm, rfl⟩)
  obtain ⟨n', hn', heq⟩ := List.mem_map.mp (Multiset.mem_coe.mp hmem)
  obtain ⟨hname, hcolumns⟩ := Prod.mk.injEq .. ▸ heq
  obtain rfl := List.inj_on_of_nodup_map ht.models hn' hn (hname.trans hmn)
  exact Multiset.coe_eq_coe.mp hcolumns.symm

/-- **What a plan looks at** decides whether two schemas are the same to a database. -/
theorem sameTables_of_outline (ht : t.Distinct) (h : s.outline = t.outline) :
    s.SameTables d t := by
  have hnames : s.modelNames.Perm t.modelNames := by
    have hfst : ∀ u : Schema, u.outline.map Prod.fst = u.modelNames := fun u => by
      simp [outline, modelNames, Function.comp_def]
    exact Multiset.coe_eq_coe.mp (by rw [← hfst, ← hfst, h])
  refine ⟨fun _ => hnames.mem_iff, fun m hm n hn hmn name => ?_,
    fun m hm n hn hmn f hf g hg hfg => ?_⟩ <;>
    have hcolumns := columns_perm_of_outline ht h hm hn hmn
  · have hperm := hcolumns.map Field.name
    rw [List.map_map, List.map_map] at hperm
    exact hperm.mem_iff
  · obtain ⟨g', hg', hbare⟩ :=
      List.mem_map.mp (hcolumns.mem_iff.mp (List.mem_map_of_mem (f := Field.bare) hf))
    have hname : g'.bare.name = f.bare.name := congrArg Field.name hbare
    obtain rfl := List.inj_on_of_nodup_map (Model.columns_nodup (ht.fields n hn)) hg' hg
      (hname.trans hfg)
    have hdefault : f.bare.default = g'.bare.default := (congrArg Field.default hbare).symm
    refine ⟨(congrArg Field.isNotNull hbare).symm, (congrArg (Field.columnType · d) hbare).symm, ?_,
      (congrArg Field.hasUniqueConstraint hbare).symm⟩
    show Default.sameOption f.bare.default g'.bare.default
    rw [hdefault]
    exact Default.sameOption_self _

end Schema

namespace Plan

/-- **Nothing invented and nothing missed.**  A plan against a deployed schema is empty exactly if
the two schemas are the same to a database, and then it is made.  In particular the plan is empty if
they differ in what it does not look at, or not at all. -/
theorem planScript_isEmpty_iff {style : Style} {desired previous : Schema} (hd : desired.Distinct)
    (hp : previous.Distinct) :
    (∀ script, (planScript style desired (some previous)).outcome = .ok script →
      (script.isEmpty ↔ previous.SameTables style.dialect desired)) ∧
    (previous.SameTables style.dialect desired →
      (planScript style desired (some previous)).outcome = .ok ⟨[]⟩) ∧
    (previous.outline = desired.outline →
      (planScript style desired (some previous)).outcome = .ok ⟨[]⟩) ∧
    (planScript style desired (some desired)).outcome = .ok ⟨[]⟩ := by
  have hempty : ∀ p : Schema, p.Distinct → p.SameTables style.dialect desired →
      (planScript style desired (some p)).outcome = .ok ⟨[]⟩ := fun p hp h =>
    Journal.map_ok_iff.mpr ⟨[], diff_outcome_of_eq_nil
      ((migration_eq_nil_iff_sameTables hd hp).mpr h), rfl⟩
  refine ⟨fun script hscript => ?_, hempty previous hp, fun h => ?_, ?_⟩
  · obtain ⟨stmts, hplan, rfl⟩ := Journal.map_ok_iff.mp hscript
    obtain ⟨-, rfl⟩ := diff_ok_iff.mp hplan
    rw [← migration_eq_nil_iff_sameTables hd hp, Script.isEmpty_ofStatements]
    exact List.isEmpty_iff
  · exact hempty previous hp (Schema.sameTables_of_outline hd h)
  · exact hempty desired hd (.refl hd)

/-- Users whose age is given a text for a default. -/
def users : Model :=
  { name := "user"
    fields :=
      [{ name := "id", typeName := "int", isPrimaryKey := true, position := ⟨2, 3⟩ },
       { name := "age", typeName := "int", default := some (.literal (.text "old"))
         position := ⟨3, 3⟩ },
       { name := "posts", typeName := "post", isArray := true
         relation := some ⟨.oneToMany, none⟩, position := ⟨4, 3⟩ }]
    uniques := [["id", "age"]] }

/-- The same users, listed in another order and without what is no column. -/
def usersListed : Model :=
  { name := "user"
    fields :=
      [{ name := "age", typeName := "int", default := some (.literal (.text "old")) },
       { name := "id", typeName := "int", isPrimaryKey := true }] }

/-- Posts with nothing but a key. -/
def posts : Model :=
  { name := "post", fields := [{ name := "id", typeName := "int", isPrimaryKey := true }] }

/-- Where the default stands already, nothing is written, so that the text in a column of integers
does no harm; a fresh script would write it. -/
theorem usersListed_plan :
    (planScript ⟨.mysql, true⟩ ⟨[users, posts]⟩ (some ⟨[posts, usersListed]⟩)).outcome = .ok ⟨[]⟩ ∧
      ∃ e, (planScript ⟨.mysql, true⟩ ⟨[users, posts]⟩ none).outcome = .error e := by
  have hcolumns : (users.columns.map Field.bare).Perm (usersListed.columns.map Field.bare) :=
    .swap ..
  have houtline : Schema.outline ⟨[posts, usersListed]⟩ = Schema.outline ⟨[users, posts]⟩ := by
    refine Multiset.coe_eq_coe.mpr ?_
    rw [List.map_cons, List.map_cons, ← Multiset.coe_eq_coe.mpr hcolumns]
    exact .swap ..
  obtain ⟨-, -, hplan, -⟩ := @planScript_isEmpty_iff ⟨.mysql, true⟩ ⟨[users, posts]⟩
    ⟨[posts, usersListed]⟩ ⟨by decide, by decide⟩ ⟨by decide, by decide⟩
  exact ⟨hplan houtline, _, by with_unfolding_all rfl⟩

end Plan

end Schemata
