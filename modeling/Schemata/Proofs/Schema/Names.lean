import Mathlib.Data.List.Nodup
import Schemata.Plan

/-!
# Proofs — different names

A schema whose models have different names, and whose models' fields do (`Schema.Distinct`).
Looking up a name then finds the model, or the column, that has it: `Schema.model?_eq_some_iff`
and `Plan.columnNamed_eq_some_iff`.
-/

namespace Schemata

/-- The name of a member of a list finds that member, if the names are different. -/
theorem find?_name_eq_some_iff {α : Type} {name : α → String} {xs : List α}
    (h : (xs.map name).Nodup) {n : String} {x : α} :
    xs.find? (fun y => name y == n) = some x ↔ x ∈ xs ∧ name x = n := by
  constructor
  · intro hx
    exact ⟨List.mem_of_find?_eq_some hx, by simpa using List.find?_some hx⟩
  · rintro ⟨hx, rfl⟩
    cases hy : xs.find? fun y => name y == name x with
    | none => exact absurd (List.find?_eq_none.mp hy x hx) (by simp)
    | some y =>
        have hname : name y = name x := by simpa using List.find?_some hy
        rw [List.inj_on_of_nodup_map h (List.mem_of_find?_eq_some hy) hx hname]

/-- Nothing of a name is found exactly if no element has it. -/
theorem find?_name_eq_none_iff {α : Type} {name : α → String} {xs : List α} {n : String} :
    xs.find? (fun y => name y == n) = none ↔ n ∉ xs.map name := by
  simp [List.find?_eq_none]

/-- No two models of the schema have the same name, and no two fields of a model do. -/
structure Schema.Distinct (s : Schema) : Prop where
  models : s.modelNames.Nodup
  fields : ∀ m ∈ s.models, (m.fields.map Field.name).Nodup

namespace Schema

variable {s : Schema}

/-- Where names are distinct, the model of a name is the one that has it. -/
theorem model?_eq_some_iff (h : s.modelNames.Nodup) {name : String} {m : Model} :
    s.model? name = some m ↔ m ∈ s.models ∧ m.name = name :=
  find?_name_eq_some_iff h

theorem model?_eq_none_iff {name : String} : s.model? name = none ↔ name ∉ s.modelNames :=
  find?_name_eq_none_iff

/-- The model of a name is one of the schema, and has that name. -/
theorem mem_of_model? {name : String} {m : Model} (h : s.model? name = some m) :
    m ∈ s.models ∧ m.name = name :=
  ⟨List.mem_of_find?_eq_some h, by simpa using List.find?_some h⟩

/-- There is a model of each name of a model. -/
theorem exists_model? {name : String} (h : name ∈ s.modelNames) : ∃ m, s.model? name = some m := by
  rw [← Option.ne_none_iff_exists', ne_eq, model?_eq_none_iff, not_not]
  exact h

end Schema

namespace Model

theorem mem_columns_iff {m : Model} {f : Field} : f ∈ m.columns ↔ f ∈ m.fields ∧ f.isColumn :=
  List.mem_filter

theorem columns_nodup {m : Model} (h : (m.fields.map Field.name).Nodup) :
    (m.columns.map Field.name).Nodup :=
  h.sublist (List.filter_sublist.map Field.name)

end Model

namespace Plan

/-- The column of a name is the column that has it. -/
theorem columnNamed_eq_some_iff {m : Model} (h : (m.fields.map Field.name).Nodup) {name : String}
    {f : Field} : columnNamed m name = some f ↔ f ∈ m.columns ∧ f.name = name := by
  unfold columnNamed Model.field?
  rw [Option.filter_eq_some_iff, find?_name_eq_some_iff h, Model.mem_columns_iff]
  exact ⟨fun ⟨⟨hf, hn⟩, hc⟩ => ⟨⟨hf, hc⟩, hn⟩, fun ⟨⟨hf, hc⟩, hn⟩ => ⟨⟨hf, hn⟩, hc⟩⟩

/-- There is no column of a name exactly if none has it. -/
theorem columnNamed_eq_none_iff {m : Model} (h : (m.fields.map Field.name).Nodup) {name : String} :
    columnNamed m name = none ↔ name ∉ m.columns.map Field.name := by
  rw [Option.eq_none_iff_forall_ne_some]
  simp only [ne_eq, columnNamed_eq_some_iff h, List.mem_map, not_exists]

/-- The column of a name is the first one that has it. -/
theorem columnNamed_eq_find? {m : Model} (h : (m.fields.map Field.name).Nodup) (name : String) :
    columnNamed m name = m.columns.find? fun f => f.name == name := by
  ext f
  rw [columnNamed_eq_some_iff h, find?_name_eq_some_iff (Model.columns_nodup h)]

end Plan

end Schemata
