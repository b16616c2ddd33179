import Mathlib.Data.List.Nodup
import Schemata.Proofs.Plan.Statements

/-!
# Proofs — what tables refer to

The foreign keys of a model (`Model.HoldsKey`) are those that its table is created with
(`Model.foreignKey_mem_elements_iff`), and they make the dependencies of a schema
(`Schema.dependsOn_iff`).  A join table joins two models, in no order (`JoinTable.joins`): there is
one for any two between which a many-to-many relation is declared (`Schema.countP_joins`), and no
other (`Schema.exists_of_mem_joinTables`).
-/

namespace Schemata

/-- What is found under a name, where every entry is made from its name. -/
theorem lookup_map_self {β : Type} {names : List String} {f : String → β} {name : String} :
    (names.map fun n => (n, f n)).lookup name = if name ∈ names then some (f name) else none := by
  induction names with
  | nil => rfl
  | cons n names ih =>
      rw [List.map_cons, List.lookup_cons, ih]
      by_cases h : name = n
      · simp [h]
      · simp [h, beq_eq_false_iff_ne.mpr h]

theorem nodup_eraseDups {α : Type} [BEq α] [LawfulBEq α] (xs : List α) : xs.eraseDups.Nodup := by
  match xs with
  | [] => exact List.nodup_nil
  | x :: xs =>
      rw [List.eraseDups_cons, List.nodup_cons]
      exact ⟨by simp [List.mem_eraseDups], nodup_eraseDups _⟩
termination_by xs.length
decreasing_by exact Nat.lt_succ_of_le (List.length_filter_le _ _)

/-- A field leads to another table exactly if its relation holds a key, and its type is no scalar.
-/
theorem Field.foreignKeyTarget?_eq_some_iff {f : Field} {target : String} :
    f.foreignKeyTarget? = some target ↔
      ∃ r key, f.relation = some r ∧ r.kind.holdsKey ∧ r.key? = some key ∧ ¬ f.isColumn ∧
        f.typeName = target := by
  unfold foreignKeyTarget?
  cases f.relation with
  | none => simp
  | some r => simp [Option.isSome_iff_exists, and_assoc]

namespace Model

/-- A foreign key of the model: its column `key` refers to the table of `target`. -/
def HoldsKey (m : Model) (key target : String) : Prop :=
  ∃ f ∈ m.fields, f.foreignKeyTarget? = some target ∧ f.relation.bind Relation.key? = some key

variable {m : Model} {d : Dialect}

/-- The foreign keys in a declaration are those that the model holds. -/
theorem mem_foreignKeys_iff {e : TableElement} :
    e ∈ m.fields.filterMap Plan.foreignKey? ↔
      ∃ key target, m.HoldsKey key target ∧ e = .foreignKey key target "id" false := by
  rw [List.mem_filterMap]
  constructor
  · rintro ⟨f, hf, h⟩
    unfold Plan.foreignKey? at h
    split at h <;> cases h
    next htarget hkey => exact ⟨_, _, ⟨f, hf, htarget, hkey⟩, rfl⟩
  · rintro ⟨key, target, ⟨f, hf, htarget, hkey⟩, rfl⟩
    refine ⟨f, hf, ?_⟩
    unfold Plan.foreignKey?
    rw [htarget, hkey]

/-- What is declared of a model's table, part by part. -/
theorem mem_elements_iff {e : TableElement} :
    e ∈ m.elements d ↔ (∃ f ∈ m.columns, e = .column (f.declaration d)) ∨
      (∃ columns ∈ m.uniques, e = .unique columns) ∨
      ∃ key target, m.HoldsKey key target ∧ e = .foreignKey key target "id" false := by
  unfold elements
  rw [List.map_map, List.mem_append, List.mem_append, mem_foreignKeys_iff, or_assoc]
  simp only [List.mem_map, Function.comp_apply, eq_comm]

theorem foreignKey_mem_elements_iff {key target : String} :
    (∃ k cascades, .foreignKey key target k cascades ∈ m.elements d) ↔ m.HoldsKey key target := by
  simp only [mem_elements_iff, reduceCtorEq, and_false, exists_false, false_or,
    TableElement.foreignKey.injEq]
  constructor
  · rintro ⟨k, cascades, key, target, hkey, rfl, rfl, -, -⟩
    exact hkey
  · exact fun h => ⟨"id", false, key, target, h, rfl, rfl, rfl, rfl⟩

theorem unique_mem_elements_iff {columns : List String} :
    .unique columns ∈ m.elements d ↔ columns ∈ m.uniques := by
  simp only [mem_elements_iff, reduceCtorEq, and_false, exists_false, false_or, or_false,
    TableElement.unique.injEq, exists_eq_right']

end Model

/-! ### Dependencies -/

namespace Schema

variable {s : Schema}

/-- The targets of a model are the models to which it holds a key. -/
theorem mem_targets_iff {m : Model} {target : String} :
    target ∈ s.targets m ↔ target ∈ s.modelNames ∧ ∃ key, m.HoldsKey key target := by
  unfold targets Model.HoldsKey
  rw [List.mem_filter, List.mem_filterMap, List.contains_iff_mem, and_comm]
  refine and_congr_right fun _ => ?_
  constructor
  · rintro ⟨f, hf, htarget⟩
    obtain ⟨r, key, hr, -, hkey, -, -⟩ := Field.foreignKeyTarget?_eq_some_iff.mp htarget
    exact ⟨key, f, hf, htarget, by rw [hr, Option.bind_some, hkey]⟩
  · rintro ⟨-, f, hf, htarget, -⟩
    exact ⟨f, hf, htarget⟩

/-- **The dependencies of a schema** are the foreign keys of its models to its models. -/
theorem dependsOn_iff {table target : String} :
    s.dependencies.DependsOn table target ↔ target ≠ table ∧ target ∈ s.modelNames ∧
      ∃ m ∈ s.models, m.name = table ∧ ∃ key, m.HoldsKey key target := by
  have hmem : target ∈ s.dependencies.of table ↔
      ∃ m ∈ s.models, m.name = table ∧ target ∈ s.targets m := by
    unfold dependencies Dependencies.of
    rw [lookup_map_self]
    split
    · simp [List.mem_eraseDups, and_assoc]
    · next h =>
        simp only [List.mem_eraseDups, modelNames, List.mem_map, not_exists, not_and] at h
        simp only [Option.getD_none, List.not_mem_nil, false_iff, not_exists, not_and]
        exact fun m hm hname => absurd hname (h m hm)
  unfold Dependencies.DependsOn
  rw [hmem, and_comm]
  refine and_congr_right fun _ => ?_
  simp only [mem_targets_iff]
  constructor
  · rintro ⟨m, hm, hname, htarget, hkey⟩
    exact ⟨htarget, m, hm, hname, hkey⟩
  · rintro ⟨htarget, m, hm, hname, hkey⟩
    exact ⟨m, hm, hname, htarget, hkey⟩

theorem acyclic_of_rank (rank : String → Nat)
    (h : ∀ m ∈ s.models, ∀ target ∈ s.targets m, target ≠ m.name → rank target < rank m.name) :
    s.dependencies.Acyclic := by
  refine Dependencies.acyclic_of_rank rank fun t u hdep => ?_
  obtain ⟨hne, hu, m, hm, rfl, hkey⟩ := dependsOn_iff.mp hdep
  exact h m hm u (mem_targets_iff.mpr ⟨hu, hkey⟩) hne

end Schema

/-! ### Join tables -/

/-- The field declares a many-to-many relation. -/
def Field.IsManyToMany (f : Field) : Prop :=
  (∃ key, f.relation = some ⟨.manyToMany, key⟩) ∧ f.isColumn = false

/-- The table joins these two models, the one way or the other. -/
def JoinTable.joins (j : JoinTable) (a b : String) : Bool :=
  j.left == a && j.right == b || j.left == b && j.right == a

theorem orderedPair_eq_or (a b : String) : orderedPair a b = (a, b) ∨ orderedPair a b = (b, a) := by
  unfold orderedPair
  split
  · exact .inr rfl
  · exact .inl rfl

/-- Two names in order are the same, whichever comes first. -/
theorem orderedPair_comm (a b : String) : orderedPair a b = orderedPair b a := by
  unfold orderedPair
  split
  next h => rw [if_neg (String.lt_asymm h)]
  next h =>
    split
    next => rfl
    next h' => rw [String.le_antisymm (String.not_lt.mp h) (String.not_lt.mp h')]

/-- A pair in order joins two names exactly if it is theirs. -/
theorem eq_orderedPair_iff {a b a' b' : String} :
    orderedPair a b = orderedPair a' b' ↔
      orderedPair a b = (a', b') ∨ orderedPair a b = (b', a') := by
  constructor
  · intro h
    rw [h]
    exact orderedPair_eq_or a' b'
  · -- in both cases the names are those of the other pair
    intro h
    rcases orderedPair_eq_or a b with hab | hab <;> rw [hab] at h ⊢ <;>
      rcases h with h | h <;> cases h
    · exact hab.symm
    · rw [orderedPair_comm]; exact hab.symm
    · rw [orderedPair_comm]; exact hab.symm
    · exact hab.symm

namespace Schema

variable {S : Schema}

/-- The pairs of a schema are those of its many-to-many fields. -/
theorem mem_pairs_iff {p : String × String} :
    p ∈ S.pairs ↔ ∃ m ∈ S.models, ∃ f ∈ m.fields, f.IsManyToMany ∧
      p = orderedPair m.name f.typeName := by
  have hpairing : ∀ (name : String) (f : Field), f.IsManyToMany ∧ p = orderedPair name f.typeName ↔
      ∃ q ∈ f.pairing? name, (q.left, q.right) = p := by
    intro name f
    unfold Field.pairing? Field.IsManyToMany
    cases f.relation with
    | none => simp
    | some r =>
        obtain ⟨kind, key⟩ := r
        cases kind <;> cases f.isColumn <;> simp [eq_comm]
  unfold pairs pairings
  simp only [List.mem_eraseDups, List.mem_map, List.mem_flatMap, List.mem_filterMap, hpairing]
  constructor
  · rintro ⟨q, ⟨m, hm, f, hf, hq⟩, rfl⟩
    exact ⟨m, hm, f, hf, q, hq, rfl⟩
  · rintro ⟨m, hm, f, hf, q, hq, rfl⟩
    exact ⟨q, ⟨m, hm, f, hf, hq⟩, rfl⟩

/-- **There is one join table** for two models between which a many-to-many relation is declared. -/
theorem countP_joins {m : Model} {f : Field} (hm : m ∈ S.models) (hf : f ∈ m.fields)
    (hmany : f.IsManyToMany) : S.joinTables.countP (·.joins m.name f.typeName) = 1 := by
  have hpair : orderedPair m.name f.typeName ∈ S.pairs :=
    mem_pairs_iff.mpr ⟨m, hm, f, hf, hmany, rfl⟩
  rw [← List.count_eq_one_of_mem (nodup_eraseDups _ : S.pairs.Nodup) hpair, List.count]
  unfold joinTables
  rw [List.countP_map]
  refine List.countP_congr fun p hp => ?_
  obtain ⟨n, -, g, -, -, rfl⟩ := mem_pairs_iff.mp hp
  simp only [JoinTable.joins, Function.comp_apply, Bool.or_eq_true, Bool.and_eq_true, beq_iff_eq]
  rw [eq_orderedPair_iff, Prod.ext_iff, Prod.ext_iff]

/-- A join table is of two models between which a many-to-many relation is declared. -/
theorem exists_of_mem_joinTables {j : JoinTable} (hj : j ∈ S.joinTables) :
    ∃ m ∈ S.models, ∃ f ∈ m.fields, f.IsManyToMany ∧ j.joins m.name f.typeName := by
  unfold joinTables at hj
  obtain ⟨p, hp, rfl⟩ := List.mem_map.mp hj
  obtain ⟨m, hm, f, hf, hmany, rfl⟩ := mem_pairs_iff.mp hp
  refine ⟨m, hm, f, hf, hmany, ?_⟩
  simpa [JoinTable.joins, Prod.ext_iff] using orderedPair_eq_or m.name f.typeName

end Schema

end Schemata
