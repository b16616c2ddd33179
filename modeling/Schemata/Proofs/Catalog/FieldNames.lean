import Mathlib.Data.List.Induction
import Schemata.Proofs.Catalog.Relations
import Schemata.Proofs.Schema.Names

/-!
# Proofs — catalogs — names of fields

Whether the fields of a model that is shown have different names.  Its columns have, and the fields
for its foreign keys, as one is left out if its name is taken (`Table.fieldNames_nodup`).  A field
for a folded table has two names to choose from: the plural of the other table, and if that is taken
the same with the name of the folded table behind it.  That one is not looked at again, so it may be
taken as well (`Field.CrowdedOut`).

`Snapshot.name_mem_earlier_iff` says that this is the only way in which two fields come to have the
same name, and `Snapshot.fieldNames_nodup_iff` when none do.
-/

namespace Schemata

/-! ### Members and what stands before them -/

section

variable {α : Type} {xs : List α} {y : α}

/-- What holds of every member of a list and the members before it. -/
theorem forall_split_concat_iff {P : List α → α → Prop} :
    (∀ before x after, xs ++ [y] = before ++ x :: after → P before x) ↔
      (∀ before x after, xs = before ++ x :: after → P before x) ∧ P xs y := by
  constructor
  · intro h
    refine ⟨fun before x after hxs => h before x (after ++ [y]) ?_, h xs y [] rfl⟩
    rw [hxs, List.append_assoc, List.cons_append]
  · rintro ⟨hxs, hy⟩ before x after h
    rcases List.eq_nil_or_concat after with rfl | ⟨after, z, rfl⟩
    · obtain ⟨rfl, hlast⟩ := List.append_inj' h rfl
      obtain rfl := (List.cons.inj hlast).1
      exact hy
    · rw [List.concat_eq_append, ← List.cons_append, ← List.append_assoc] at h
      exact hxs before x after (List.append_inj' h rfl).1

theorem nodup_map_concat_iff {name : α → String} :
    ((xs ++ [y]).map name).Nodup ↔ (xs.map name).Nodup ∧ name y ∉ xs.map name := by
  rw [List.map_append, List.map_singleton, ← List.concat_eq_append, List.nodup_concat]
  exact and_comm

theorem nodup_map_iff_forall_split {name : α → String} :
    (xs.map name).Nodup ↔
      ∀ (before : List α) (x : α) (after : List α),
        xs = before ++ x :: after → name x ∉ before.map name := by
  induction xs using List.reverseRecOn with
  | nil => exact iff_of_true List.nodup_nil fun _ _ _ h => absurd h (by simp)
  | append_singleton xs y ih => rw [nodup_map_concat_iff, forall_split_concat_iff, ih]

/-- The first members of a list are found by their names, if these are different. -/
theorem find?_name_append {name : α → String} {ys : List α} (h : (xs.map name).Nodup) {x : α}
    (hx : x ∈ xs) : (xs ++ ys).find? (fun z => name z == name x) = some x := by
  rw [List.find?_append, (find?_name_eq_some_iff h).mpr ⟨hx, rfl⟩, Option.some_or]

end

/-! ### The fields of a table -/

namespace Table

variable {t : Table} {d : Dialect} {m : Model}

/-- The fields for foreign keys have distinct names. -/
theorem relationFields_nodup (taken : List String) (keys : List (String × String)) :
    ((relationFields taken keys).map Field.name).Nodup := by
  induction keys generalizing taken with
  | nil => exact List.nodup_nil
  | cons key keys ih =>
      unfold relationFields
      split
      · exact ih taken
      · refine List.nodup_cons.mpr ⟨fun hmem => ?_, ih _⟩
        obtain ⟨f, hf, hname⟩ := List.mem_map.mp hmem
        obtain ⟨column, target, hfree, -, rfl⟩ := mem_relationFields_iff.mp hf
        have htarget : target = key.2 := hname
        exact hfree (htarget ▸ List.mem_cons_self)

/-- **Columns and foreign keys** have different names. -/
theorem fieldNames_nodup (hcolumns : (t.columns.map Column.name).Nodup) (h : t.model d = .ok m) :
    (m.fields.map Field.name).Nodup := by
  obtain ⟨fields, hfields, rfl⟩ := model_ok_iff.mp h
  rw [List.map_append, List.nodup_append]
  refine ⟨map_name_columnFields hfields ▸ hcolumns, relationFields_nodup _ _, ?_⟩
  rintro name hname _ hrelation rfl
  obtain ⟨f, hf, rfl⟩ := List.mem_map.mp hrelation
  obtain ⟨column, target, hfree, -, rfl⟩ := mem_relationFields_iff.mp hf
  exact hfree hname

/-- The field of a column stands for no table. -/
theorem not_standsFor_of_columnField {c : Column} {f : Field} {table : String}
    (h : t.columnField d c = .ok f) : ¬ f.StandsFor table := by
  intro hstands
  have hrelation : f.relation = some ⟨.manyToMany, some table⟩ := by rw [hstands]
  unfold columnField at h
  generalize (if d = .mysql then mysqlScalar c.dataType c.fullType
    else postgresScalar c.dataType c.elementType) = kind at h
  dsimp only at h
  split at h <;> obtain ⟨default, -, h⟩ := Except.bind_eq_ok_iff.mp h <;> cases h <;>
    split at hrelation <;> cases hrelation

theorem not_standsFor_of_model (h : t.model d = .ok m) {f : Field} (hf : f ∈ m.fields)
    {table : String} : ¬ f.StandsFor table := by
  obtain ⟨fields, hfields, rfl⟩ := model_ok_iff.mp h
  rcases List.mem_append.mp hf with hf | hf
  · obtain ⟨c, -, hc⟩ := exists_of_forall₂ hfields.flip hf
    exact not_standsFor_of_columnField hc
  · obtain ⟨column, target, -, -, rfl⟩ := mem_relationFields_iff.mp hf
    exact fun hstands => nomatch congrArg Field.isArray hstands

end Table

/-! ### The fields for folded tables -/

namespace Field

/-- The name that a field with values of a type is given, unless it is taken. -/
def pluralName (f : Field) : String := Text.lower (pluralize f.typeName)

/-- Both names that a field for a folded table may be given are those of others. -/
def CrowdedOut (f : Field) (table : String) (others : List Field) : Prop :=
  f.pluralName ∈ others.map name ∧
    f.pluralName ++ "_" ++ trimUnderscores table ∈ others.map name

theorem StandsFor.unique {f : Field} {table table' : String} (h : f.StandsFor table)
    (h' : f.StandsFor table') : table = table' := by
  have hrelation := (congrArg relation h).symm.trans (congrArg relation h')
  simpa using hrelation

end Field

namespace Model

variable {m : Model}

/-- A field for a folded table has a name that is taken just if it has no other choice. -/
theorem name_linkField_mem_iff {target table : String} :
    (m.linkField target table).name ∈ m.fields.map Field.name ↔
      (m.linkField target table).CrowdedOut table m.fields := by
  have hplural : (m.linkField target table).pluralName = Text.lower (pluralize target) := rfl
  have hname : (m.linkField target table).name =
      if (m.fields.map Field.name).contains (Text.lower (pluralize target)) then
        Text.lower (pluralize target) ++ "_" ++ trimUnderscores table
      else Text.lower (pluralize target) := rfl
  rw [Field.CrowdedOut, hplural, hname]
  by_cases h : Text.lower (pluralize target) ∈ m.fields.map Field.name
  · rw [if_pos (List.contains_iff_mem.mpr h), and_iff_right h]
  · rw [if_neg (mt List.contains_iff_mem.mp h)]
    exact iff_of_false h fun hboth => h hboth.1

theorem withLink_eq_or (m : Model) (l : Link) : m.withLink l = m ∨
    ∃ target, m.withLink l = { m with fields := m.fields ++ [m.linkField target l.table] } := by
  unfold withLink
  split
  · exact .inr ⟨_, rfl⟩
  · split
    · exact .inr ⟨_, rfl⟩
    · exact .inl rfl

/-- A field has the name of one before it just if it is crowded out by those before it. -/
def NamesFields (m : Model) : Prop :=
  ∀ (earlier : List Field) (f : Field) (later : List Field), m.fields = earlier ++ f :: later →
    (f.name ∈ earlier.map Field.name ↔ ∃ table, f.StandsFor table ∧ f.CrowdedOut table earlier)

/-- A link leaves a model whose names are taken only for want of others. -/
theorem NamesFields.withLink (h : m.NamesFields) (l : Link) : (m.withLink l).NamesFields := by
  rcases m.withLink_eq_or l with heq | ⟨target, heq⟩
  · rwa [heq]
  · rw [heq]
    refine forall_split_concat_iff.mpr ⟨h, ?_⟩
    rw [name_linkField_mem_iff]
    refine ⟨fun hcrowded => ⟨l.table, rfl, hcrowded⟩, ?_⟩
    rintro ⟨table, hstands, hcrowded⟩
    have hself : (m.linkField target l.table).StandsFor l.table := rfl
    obtain rfl : table = l.table := hstands.unique hself
    exact hcrowded

theorem NamesFields.foldl_withLink (h : m.NamesFields) (ls : List Link) :
    (ls.foldl Model.withLink m).NamesFields := by
  induction ls generalizing m with
  | nil => exact h
  | cons l ls ih => exact ih (h.withLink l)

end Model

/-! ### The models that are shown -/

namespace Snapshot

variable {s : Snapshot} {d : Dialect} {shown : Schema} {m : Model}

/-- **Two fields have the same name** just if the later one stands for a folded table and is crowded
out. -/
theorem name_mem_earlier_iff (hcolumns : ∀ t ∈ s, (t.columns.map Column.name).Nodup)
    (h : (s.schema d).outcome = .ok shown) (hm : m ∈ shown.models) : m.NamesFields := by
  obtain ⟨t, ht, -, bare, hbare, rfl⟩ := (mem_models_schema_iff h).mp hm
  refine Model.NamesFields.foldl_withLink (fun earlier f later hfields => ?_) _
  have hnodup := Table.fieldNames_nodup (hcolumns t ht) hbare
  refine iff_of_false (nodup_map_iff_forall_split.mp hnodup _ _ _ hfields) ?_
  rintro ⟨table, hstands, -⟩
  exact Table.not_standsFor_of_model hbare (hfields ▸ by simp) hstands

/-- **The names of the fields** of a model are different, as long as no field for a folded table is
crowded out.  Then every field is found by its name, and every column; the columns of the table and
the fields for its foreign keys are found in any case. -/
theorem fieldNames_nodup_iff (hcolumns : ∀ t ∈ s, (t.columns.map Column.name).Nodup)
    (h : (s.schema d).outcome = .ok shown) (hm : m ∈ shown.models) :
    ((m.fields.map Field.name).Nodup ↔ ∀ earlier f later table,
      m.fields = earlier ++ f :: later → f.StandsFor table → ¬ f.CrowdedOut table earlier) ∧
    ((m.fields.map Field.name).Nodup → (∀ f ∈ m.fields, m.field? f.name = some f) ∧
      ∀ f ∈ m.columns, Plan.columnNamed m f.name = some f) ∧
    ∀ f ∈ m.fields, m.field? f.name = some f ∨
      ∃ u ∈ s, s.FoldsTable u ∧ u.Joins s.names m.name f.typeName ∧ f.StandsFor u.name := by
  refine ⟨?_, fun hnodup => ⟨fun f hf => (find?_name_eq_some_iff hnodup).mpr ⟨hf, rfl⟩,
    fun f hf => (Plan.columnNamed_eq_some_iff hnodup).mpr ⟨hf, rfl⟩⟩, fun f hf => ?_⟩
  · have hnames := name_mem_earlier_iff hcolumns h hm
    rw [nodup_map_iff_forall_split]
    constructor
    · intro hfree earlier f later table hfields hstands hcrowded
      exact hfree _ _ _ hfields ((hnames _ _ _ hfields).mpr ⟨table, hstands, hcrowded⟩)
    · intro hfree earlier f later hfields hmem
      obtain ⟨table, hstands, hcrowded⟩ := (hnames _ _ _ hfields).mp hmem
      exact hfree _ _ _ table hfields hstands hcrowded
  · obtain ⟨t, ht, -, bare, hbare, rfl⟩ := (mem_models_schema_iff h).mp hm
    obtain ⟨more, hmore, hlinks⟩ := s.withLinks_eq bare
    rw [hmore] at hf ⊢
    rcases List.mem_append.mp hf with hf | hf
    · exact .inl (find?_name_append (Table.fieldNames_nodup (hcolumns t ht) hbare) hf)
    · obtain ⟨u, hu, hjoins, hstands⟩ := exists_of_forall₂ hlinks.flip hf
      obtain ⟨hmem, hfolds⟩ := List.mem_filter.mp hu
      exact .inr ⟨u, hmem, (foldsTo_iff.mp hfolds).1, hjoins, hstands⟩

/-- A table of posts, whose tags are written in one of its columns. -/
def postTable : Table :=
  { name := "post"
    columns :=
      [{ name := "id", dataType := "integer", elementType := "int4" },
       { name := "tags", dataType := "text", elementType := "text" }] }

/-- Posts that have tags in a table as well. -/
def taggedPosts : Snapshot :=
  [postTable, joinTable "post_tag" "post" "tag", Plan.keyTable "tag"]

/-- What the fields of the first model are called. -/
theorem exists_model_of_names {names : List String}
    (h : ((s.schema d).outcome.toOption.bind fun shown =>
      shown.models.head?.map fun m => m.fields.map Field.name) = some names) :
    ∃ shown m, (s.schema d).outcome = .ok shown ∧ m ∈ shown.models ∧
      m.fields.map Field.name = names := by
  obtain ⟨shown, hshown, hnames⟩ := Option.bind_eq_some_iff.mp h
  obtain ⟨m, hm, hnames⟩ := Option.map_eq_some_iff.mp hnames
  exact ⟨shown, m, Except.toOption_eq_some_iff.mp hshown, List.mem_of_mem_head? hm, hnames⟩

/-- The tags of the table go by its name. -/
theorem taggedPosts_found : (∀ t ∈ taggedPosts, (t.columns.map Column.name).Nodup) ∧ ∃ shown m,
    (taggedPosts.schema .postgres).outcome = .ok shown ∧ m ∈ shown.models ∧
      m.fields.map Field.name = ["id", "tags", "tags_post_tag"] ∧
      ∀ f ∈ m.fields, m.field? f.name = some f := by
  have hcolumns : ∀ t ∈ taggedPosts, (t.columns.map Column.name).Nodup := by decide +kernel
  obtain ⟨shown, m, hshown, hm, hfields⟩ := @exists_model_of_names taggedPosts .postgres
    ["id", "tags", "tags_post_tag"] (by decide +kernel)
  obtain ⟨-, hfound, -⟩ := fieldNames_nodup_iff hcolumns hshown hm
  exact ⟨hcolumns, shown, m, hshown, hm, hfields, (hfound (hfields ▸ by decide)).1⟩

/-- **Two fields of one name**: the tags of posts in two tables, whose names differ in nothing but
the underscores at their ends. -/
theorem postTags_clash :
    let s : Snapshot := joinTable "_post_tag" "post" "tag" :: taggedPosts
    s.names.Nodup ∧ (∀ t ∈ s, (t.columns.map Column.name).Nodup) ∧ ∃ shown m,
      (s.schema .postgres).outcome = .ok shown ∧ m ∈ shown.models ∧
        m.fields.map Field.name = ["id", "tags", "tags_post_tag", "tags_post_tag"] ∧
        ¬ (m.fields.map Field.name).Nodup := by
  intro s
  obtain ⟨shown, m, hshown, hm, hfields⟩ := @exists_model_of_names s .postgres
    ["id", "tags", "tags_post_tag", "tags_post_tag"] (by decide +kernel)
  refine ⟨by decide +kernel, by decide +kernel, shown, m, hshown, hm, hfields, ?_⟩
  rw [hfields]
  decide

end Snapshot

end Schemata
