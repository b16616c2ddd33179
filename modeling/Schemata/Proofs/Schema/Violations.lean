import Mathlib.Data.List.Perm.Basic
import Schemata.Proofs.Schema.Declared

/-!
# Proofs — schemas — the rules on names

What the rules on names find in a schema, said of each declaration by itself: of a model or a field,
whether one before it has its name, and whether that is a snake name (`Schema.report`); under the
strict rules also of each relation and each member of a block, whether what it refers to is declared.

* `Schema.violations_exact` — that is what is found, in the order of the source, and nothing else.
-/

namespace Schemata

/-! ### Snake names -/

/-- Runs of small letters and digits, none of them empty, joined by single underscores. -/
def IsSnakeName (name : String) : Prop :=
  ∃ runs : List (List Char), runs ≠ [] ∧ name.toList = ['_'].intercalate runs ∧
    ∀ run ∈ runs, run ≠ [] ∧ ∀ c ∈ run, ('a' ≤ c ∧ c ≤ 'z') ∨ ('0' ≤ c ∧ c ≤ '9')

theorem isSnakeChar_iff {c : Char} :
    isSnakeChar c = true ↔ ('a' ≤ c ∧ c ≤ 'z') ∨ ('0' ≤ c ∧ c ≤ '9') := by
  unfold isSnakeChar Char.isLower Char.isDigit
  simp only [Bool.or_eq_true, Bool.and_eq_true, decide_eq_true_eq]
  rfl

/-- A snake name splits at its underscores into parts of its characters that are not empty. -/
theorem isSnakeName_iff {name : String} :
    IsSnakeName name ↔
      ((Text.splitOn '_' name.toList).all fun part => !part.isEmpty && part.all isSnakeChar) =
        true := by
  have hpart : ∀ p : List Char, (!p.isEmpty && p.all isSnakeChar) = true ↔
      p ≠ [] ∧ ∀ c ∈ p, ('a' ≤ c ∧ c ≤ 'z') ∨ ('0' ≤ c ∧ c ≤ '9') := fun p => by
    simp [isSnakeChar_iff]
  rw [List.all_eq_true]
  simp only [hpart]
  constructor
  · rintro ⟨runs, hne, hname, hruns⟩
    have hclean : ∀ run ∈ runs, '_' ∉ run := fun run hrun hmem =>
      absurd ((hruns run hrun).2 '_' hmem) (by decide)
    rwa [hname, Text.splitOn_intercalate hne hclean]
  · exact fun h => ⟨_, Text.splitOn_ne_nil _ _, (Text.intercalate_splitOn _ _).symm, h⟩

instance : DecidablePred IsSnakeName := fun _ => decidable_of_iff _ isSnakeName_iff.symm

/-- The rule on the letters of names, for names that are words. -/
theorem isSnakeCase_iff {name : String} (h : Lexeme.IsWord name) :
    isSnakeCase name = true ↔ IsSnakeName name := by
  have hline : name.toList.getLast? ≠ some '\n' := fun hlast => by
    obtain ⟨c, cs, hname, hc, hcs⟩ := h
    have hmem := List.mem_of_getLast? hlast
    rw [hname] at hmem
    rcases List.mem_cons.mp hmem with rfl | hmem
    · exact absurd hc (by decide)
    · exact absurd (hcs _ hmem) (by decide)
  rw [isSnakeName_iff, isSnakeCase, chomp, if_neg hline]

/-! ### What is to be found -/

/-- What the fields of a model break, each by itself: that one before it has its name, and that this
is no snake name. -/
def Model.fieldReport (m : Model) : List SemanticFault :=
  m.fields.zipIdx.flatMap fun (f, i) =>
    (if f.name ∈ (m.fields.take i).map Field.name then
      [⟨.duplicateField f.name m.name, f.position⟩] else []) ++
    if IsSnakeName f.name then [] else [⟨.fieldCase f.name, f.position⟩]

/-- What the models of a schema break, each with its fields after it. -/
def Schema.report (s : Schema) : List SemanticFault :=
  s.models.zipIdx.flatMap fun (m, i) =>
    (if m.name ∈ (s.models.take i).map Model.name then [⟨.duplicateModel m.name, m.position⟩]
      else []) ++
    (if IsSnakeName m.name then [] else [⟨.modelCase m.name, m.position⟩]) ++ m.fieldReport

namespace Model

variable (m : Model)

/-- The relations that lead to none of the declared models. -/
def unknownTargets (declared : List String) : List SemanticFault :=
  (m.fields.filter fun f => f.relation.isSome ∧ f.typeName ∉ declared).map fun f =>
    ⟨.unknownTarget m.name f.name f.typeName, f.position⟩

/-- The foreign key of a relation, if a column of the model should hold it and none does. -/
def unknownKey? (f : Field) : Option SemanticFault :=
  match f.relation with
  | some ⟨kind, some key⟩ =>
    if (kind = .manyToOne ∨ kind = .oneToOne) ∧ key ≠ "" ∧ key ∉ m.fields.map Field.name then
      some ⟨.unknownKey key m.name f.name, f.position⟩
    else none
  | _ => none

def unknownKeys : List SemanticFault := m.fields.filterMap m.unknownKey?

/-- The members of blocks that are no field of the model, as often as they stand there. -/
def unknownMembers : List SemanticFault :=
  (m.uniques.flatten.filter fun name => name ∉ m.fields.map Field.name).map fun name =>
    ⟨.unknownMember name m.name, m.position⟩

end Model

/-- The names are declared once, and are snake names. -/
structure Schema.KeepsNames (s : Schema) : Prop where
  models : s.modelNames.Nodup
  fields : ∀ m ∈ s.models, (m.fields.map Field.name).Nodup
  snake : ∀ m ∈ s.models, IsSnakeName m.name ∧ ∀ f ∈ m.fields, IsSnakeName f.name

/-- What is referred to is declared. -/
structure Schema.KeepsReferences (s : Schema) : Prop where
  targets : ∀ m ∈ s.models, ∀ f ∈ m.fields, f.relation.isSome → f.typeName ∈ s.modelNames
  keys : ∀ m ∈ s.models, ∀ f ∈ m.fields, ∀ kind key, f.relation = some ⟨kind, some key⟩ →
    kind = .manyToOne ∨ kind = .oneToOne → key ≠ "" → key ∈ m.fields.map Field.name
  members : ∀ m ∈ s.models, ∀ names ∈ m.uniques, ∀ name ∈ names, name ∈ m.fields.map Field.name

/-! ### Going through the declarations -/

section

variable {α : Type} (name : α → String) (own other : α → List SemanticFault)
  (go : List String → List α → List SemanticFault)

/-- A walk that keeps the names it has seen finds at each element what that element breaks by
itself, and whether one before it has its name. -/
theorem walk_eq_flatMap (hnil : ∀ seen, go seen [] = [])
    (hcons : ∀ seen x xs, go seen (x :: xs) =
      (if seen.contains (name x) then own x else []) ++ other x ++ go (name x :: seen) xs)
    (seen : List String) (xs : List α) :
    go seen xs = xs.zipIdx.flatMap fun (x, i) =>
      (if name x ∈ seen ∨ name x ∈ (xs.take i).map name then own x else []) ++ other x := by
  induction xs generalizing seen with
  | nil => exact hnil seen
  | cons x xs ih =>
      rw [hcons, ih, List.zipIdx_cons, List.flatMap_cons, List.zipIdx_succ, List.flatMap_map]
      congr 1
      · simp
      · refine congrArg (List.flatMap · _) (funext fun (y, i) => ?_)
        simp [or_assoc, or_left_comm]

/-- What a walk without names before it finds. -/
theorem walk_nil_eq_flatMap (hnil : ∀ seen, go seen [] = [])
    (hcons : ∀ seen x xs, go seen (x :: xs) =
      (if seen.contains (name x) then own x else []) ++ other x ++ go (name x :: seen) xs)
    (xs : List α) :
    go [] xs = xs.zipIdx.flatMap fun (x, i) =>
      (if name x ∈ (xs.take i).map name then own x else []) ++ other x := by
  rw [walk_eq_flatMap name own other go hnil hcons]
  simp only [List.not_mem_nil, false_or]

/-- Names are different if none is that of an element before. -/
theorem nodup_map_iff_zipIdx (xs : List α) :
    (xs.map name).Nodup ↔ ∀ p ∈ xs.zipIdx, name p.1 ∉ (xs.take p.2).map name := by
  have htake : ∀ l : List String, l.Nodup ↔ ∀ i a, l[i]? = some a → a ∉ l.take i := fun l => by
    rw [List.Nodup, List.pairwise_iff_getElem]
    simp only [List.mem_take_iff_getElem, List.getElem?_eq_some_iff]
    grind
  rw [htake]
  constructor
  · rintro h ⟨x, i⟩ hx
    have hget := List.mk_mem_zipIdx_iff_getElem?.mp hx
    have hnot := h i (name x) (by rw [List.getElem?_map, hget]; rfl)
    rwa [← List.map_take] at hnot
  · intro h i a ha
    rw [List.getElem?_map, Option.map_eq_some_iff] at ha
    obtain ⟨x, hx, rfl⟩ := ha
    rw [← List.map_take]
    exact h (x, i) (List.mk_mem_zipIdx_iff_getElem?.mpr hx)

omit name own other go in
theorem forall_zipIdx_iff (P : α → Prop) (xs : List α) :
    (∀ p ∈ xs.zipIdx, P p.1) ↔ ∀ x ∈ xs, P x := by
  conv => rhs; rw [← List.zipIdx_map_fst 0 xs]
  exact List.forall_mem_map.symm

/-- What is found at places that come in order is in order. -/
theorem inOrder_flatMap_zipIdx {places : α → List Position} {F : α × Nat → List SemanticFault}
    {xs : List α} (n : Nat)
    (hF : ∀ x ∈ xs, ∀ i, ((F (x, i)).map SemanticFault.position).Pairwise (· ≤ ·) ∧
      ∀ e ∈ F (x, i), e.position ∈ places x)
    (h : (xs.flatMap places).Pairwise (· < ·)) :
    (((xs.zipIdx n).flatMap F).map SemanticFault.position).Pairwise (· ≤ ·) ∧
      ∀ e ∈ (xs.zipIdx n).flatMap F, e.position ∈ xs.flatMap places := by
  induction xs generalizing n with
  | nil => exact ⟨.nil, nofun⟩
  | cons x xs ih =>
      obtain ⟨hx, hxs⟩ := List.forall_mem_cons.mp hF
      rw [List.flatMap_cons, List.pairwise_append] at h
      obtain ⟨-, htail, hlt⟩ := h
      obtain ⟨hordered, hplaces⟩ := ih (n + 1) hxs htail
      rw [List.zipIdx_cons, List.flatMap_cons, List.flatMap_cons, List.map_append,
        List.pairwise_append]
      refine ⟨⟨(hx n).1, hordered, ?_⟩, fun e he => ?_⟩
      · intro p hp q hq
        obtain ⟨e, he, rfl⟩ := List.mem_map.mp hp
        obtain ⟨e', he', rfl⟩ := List.mem_map.mp hq
        exact (hlt _ ((hx n).2 e he) _ (hplaces e' he')).le
      · rcases List.mem_append.mp he with he | he
        · exact List.mem_append_left _ ((hx n).2 e he)
        · exact List.mem_append_right _ (hplaces e he)

end

/-- What is found at one place is in order. -/
theorem inOrder_of_forall_eq {es : List SemanticFault} {p : Position}
    (h : ∀ e ∈ es, e.position = p) :
    (es.map SemanticFault.position).Pairwise (· ≤ ·) ∧ ∀ e ∈ es, e.position ∈ [p] := by
  refine ⟨?_, fun e he => List.mem_singleton.mpr (h e he)⟩
  rw [List.pairwise_map]
  exact List.pairwise_of_forall_mem_list fun e he e' he' => by rw [h e he, h e' he']

/-- What is found at one place comes before what is found at later ones. -/
theorem inOrder_append {own later : List SemanticFault} {p : Position} {ps : List Position}
    (hown : ∀ e ∈ own, e.position = p)
    (hordered : (later.map SemanticFault.position).Pairwise (· ≤ ·))
    (hlater : ∀ e ∈ later, e.position ∈ ps) (hlt : ∀ q ∈ ps, p < q) :
    ((own ++ later).map SemanticFault.position).Pairwise (· ≤ ·) ∧
      ∀ e ∈ own ++ later, e.position ∈ p :: ps := by
  refine ⟨?_, fun e he => ?_⟩
  · rw [List.map_append, List.pairwise_append]
    refine ⟨(inOrder_of_forall_eq hown).1, hordered, fun q hq r hr => ?_⟩
    obtain ⟨e, he, rfl⟩ := List.mem_map.mp hq
    obtain ⟨e', he', rfl⟩ := List.mem_map.mp hr
    exact (hown e he).symm ▸ (hlt _ (hlater e' he')).le
  · rcases List.mem_append.mp he with he | he
    · exact hown e he ▸ List.mem_cons_self
    · exact List.mem_cons_of_mem p (hlater e he)

/-- What is found at a declaration by itself is found at its place. -/
theorem position_of_mem {p q : Prop} [Decidable p] [Decidable q] {own case e : SemanticFault}
    {place : Position} (hown : own.position = place) (hcase : case.position = place)
    (h : e ∈ (if p then [own] else []) ++ if q then [] else [case]) : e.position = place := by
  rcases List.mem_append.mp h with h | h
  · split at h
    · rw [List.mem_singleton.mp h, hown]
    · cases h
  · split at h
    · cases h
    · rw [List.mem_singleton.mp h, hcase]

namespace Model

variable {m : Model}

theorem fieldFaults_eq (hwords : ∀ f ∈ m.fields, Lexeme.IsWord f.name) :
    fieldFaults m.name [] m.fields = m.fieldReport := by
  rw [walk_nil_eq_flatMap Field.name (fun f => [⟨.duplicateField f.name m.name, f.position⟩])
    Field.namingFaults (fieldFaults m.name) (fun _ => rfl) fun _ _ _ => rfl]
  refine List.flatMap_congr fun (f, i) hf => ?_
  dsimp only
  unfold Field.namingFaults
  simp only [isSnakeCase_iff (hwords f (List.fst_mem_of_mem_zipIdx hf))]

theorem fieldReport_inOrder (h : (m.fields.map Field.position).Pairwise (· < ·)) :
    (m.fieldReport.map SemanticFault.position).Pairwise (· ≤ ·) ∧
      ∀ e ∈ m.fieldReport, e.position ∈ m.fields.map Field.position := by
  have hplaces : m.fields.flatMap (fun f => [f.position]) = m.fields.map Field.position :=
    List.map_eq_flatMap.symm
  rw [← hplaces] at h ⊢
  exact inOrder_flatMap_zipIdx 0 (fun f _ i => inOrder_of_forall_eq fun e he =>
    position_of_mem rfl rfl he) h

/-- Nothing is reported of fields exactly if their names are distinct and in snake case. -/
theorem fieldReport_eq_nil_iff :
    m.fieldReport = [] ↔
      (m.fields.map Field.name).Nodup ∧ ∀ f ∈ m.fields, IsSnakeName f.name := by
  unfold fieldReport
  have hsnake : (∀ p ∈ m.fields.zipIdx, IsSnakeName p.1.name) ↔ _ :=
    forall_zipIdx_iff (fun f => IsSnakeName f.name) m.fields
  rw [List.flatMap_eq_nil_iff, nodup_map_iff_zipIdx, ← hsnake, ← forall₂_and]
  refine forall₂_congr fun (f, i) _ => ?_
  dsimp only
  rw [List.append_eq_nil_iff]
  split <;> split <;> simp_all

/-! ### References -/

/-- The unknown targets are found field by field. -/
theorem unknownTargets_eq_flatMap (declared : List String) :
    m.unknownTargets declared = m.fields.flatMap fun f =>
      if f.relation.isSome ∧ f.typeName ∉ declared then
        [⟨.unknownTarget m.name f.name f.typeName, f.position⟩] else [] := by
  unfold unknownTargets
  induction m.fields with
  | nil => rfl
  | cons f fs ih =>
      rw [List.filter_cons, List.flatMap_cons, ← ih]
      split <;> split <;> simp_all

/-- What a relation breaks is that it leads to no model, and that its key is no field. -/
theorem relationFaults_eq (declared : List String) (f : Field) :
    m.relationFaults declared f =
      (if f.relation.isSome ∧ f.typeName ∉ declared then
        [⟨.unknownTarget m.name f.name f.typeName, f.position⟩] else []) ++
      (m.unknownKey? f).toList := by
  unfold relationFaults unknownKey?
  cases f.relation with
  | none => simp
  | some r =>
      obtain ⟨kind, key⟩ := r
      dsimp only
      congr 1
      · simp
      · cases key with
        | none => rfl
        | some key =>
            have hgiven : Relation.key? ⟨kind, some key⟩ = if key = "" then none else some key := by
              by_cases hempty : key = "" <;> simp [Relation.key?, Option.filter, hempty]
            rw [hgiven]
            by_cases hempty : key = ""
            · simp [hempty]
            · by_cases hkey : key ∈ m.fields.map Field.name <;> cases kind <;>
                simp_all [RelationKind.holdsKey]

/-- The faults of references are the unknown targets, keys and members, in some order. -/
theorem referenceFaults_perm (declared : List String) :
    (m.referenceFaults declared).Perm
      (m.unknownTargets declared ++ m.unknownKeys ++ m.unknownMembers) := by
  have hrelations : (m.fields.flatMap (m.relationFaults declared)).Perm
      (m.unknownTargets declared ++ m.unknownKeys) := by
    rw [unknownTargets_eq_flatMap, unknownKeys, List.filterMap_eq_flatMap_toList,
      funext (relationFaults_eq declared)]
    exact (List.flatMap_append_perm ..).symm
  have hmembers : (m.uniques.flatten.filterMap fun name =>
      if (m.fields.map Field.name).contains name then none
      else some (SemanticFault.mk (.unknownMember name m.name) m.position)) = m.unknownMembers := by
    unfold unknownMembers
    induction m.uniques.flatten with
    | nil => rfl
    | cons name names ih =>
        rw [List.filterMap_cons, List.filter_cons, ih]
        by_cases hname : name ∈ m.fields.map Field.name <;> simp [hname]
  unfold referenceFaults
  rw [hmembers]
  exact hrelations.append_right _

/-- No unknown key is reported exactly if a key that is required and not empty names a field. -/
theorem unknownKey?_eq_none_iff (f : Field) :
    m.unknownKey? f = none ↔
      ∀ kind key, f.relation = some ⟨kind, some key⟩ →
        kind = .manyToOne ∨ kind = .oneToOne → key ≠ "" → key ∈ m.fields.map Field.name := by
  unfold unknownKey?
  split
  next kind key hrelation =>
      rw [ite_eq_right_iff]
      constructor
      · intro h kind' key' heq hkind hne
        cases hrelation.symm.trans heq
        by_contra hnot
        exact absurd (h ⟨hkind, hne, hnot⟩) (Option.some_ne_none _)
      · rintro h ⟨hkind, hne, hnot⟩
        exact absurd (h kind key hrelation hkind hne) hnot
  next hnone => exact iff_of_true rfl fun kind key heq => absurd heq (hnone kind key)

/-- No reference is at fault exactly if targets, keys and unique members are all known. -/
theorem referenceFaults_eq_nil_iff (declared : List String) :
    m.referenceFaults declared = [] ↔
      (∀ f ∈ m.fields, f.relation.isSome → f.typeName ∈ declared) ∧
      (∀ f ∈ m.fields, ∀ kind key, f.relation = some ⟨kind, some key⟩ →
        kind = .manyToOne ∨ kind = .oneToOne → key ≠ "" → key ∈ m.fields.map Field.name) ∧
      ∀ names ∈ m.uniques, ∀ name ∈ names, name ∈ m.fields.map Field.name := by
  have htargets : m.unknownTargets declared = [] ↔
      ∀ f ∈ m.fields, f.relation.isSome → f.typeName ∈ declared := by
    simp [unknownTargets, List.filter_eq_nil_iff]
  have hkeys : m.unknownKeys = [] ↔ ∀ f ∈ m.fields, m.unknownKey? f = none :=
    List.filterMap_eq_nil_iff
  have hmembers : m.unknownMembers = [] ↔
      ∀ names ∈ m.uniques, ∀ name ∈ names, name ∈ m.fields.map Field.name := by
    rw [unknownMembers, List.map_eq_nil_iff, List.filter_eq_nil_iff, List.forall_mem_flatten]
    simp
  simp only [unknownKey?_eq_none_iff] at hkeys
  rw [← List.length_eq_zero_iff, (referenceFaults_perm declared).length_eq,
    List.length_eq_zero_iff, List.append_eq_nil_iff, List.append_eq_nil_iff, htargets, hkeys,
    hmembers, and_assoc]

end Model

/-! ### A schema -/

namespace Schema

variable {s : Schema}

/-- The faults of models are the report, of names that are words. -/
theorem modelFaults_eq
    (hwords : ∀ m ∈ s.models, Lexeme.IsWord m.name ∧ ∀ f ∈ m.fields, Lexeme.IsWord f.name) :
    modelFaults [] s.models = s.report := by
  rw [walk_nil_eq_flatMap Model.name (fun m => [⟨.duplicateModel m.name, m.position⟩])
    Model.namingFaults modelFaults (fun _ => rfl) fun _ _ _ => rfl]
  refine List.flatMap_congr fun (m, i) hm => ?_
  obtain ⟨hname, hfields⟩ := hwords m (List.fst_mem_of_mem_zipIdx hm)
  dsimp only
  rw [Model.namingFaults, Model.fieldFaults_eq hfields, ← List.append_assoc]
  simp only [isSnakeCase_iff hname]

/-- The report on a schema whose declarations stand in order is in order. -/
theorem report_inOrder (h : s.places.Pairwise (· < ·)) :
    (s.report.map SemanticFault.position).Pairwise (· ≤ ·) := by
  refine (inOrder_flatMap_zipIdx 0 (fun m hm i => ?_) h).1
  -- the places of one model are in order, as those of all are
  have hplaces := (List.pairwise_flatMap.mp h).1 m hm
  rw [Model.places, List.pairwise_cons] at hplaces
  obtain ⟨hfirst, hfields⟩ := hplaces
  obtain ⟨hordered, hmem⟩ := Model.fieldReport_inOrder hfields
  exact inOrder_append (fun e he => position_of_mem rfl rfl he) hordered hmem hfirst

/-- Nothing is reported exactly if the names are kept. -/
theorem report_eq_nil_iff : s.report = [] ↔ s.KeepsNames := by
  have hsnake : (∀ p ∈ s.models.zipIdx, IsSnakeName p.1.name ∧ p.1.fieldReport = []) ↔ _ :=
    forall_zipIdx_iff (fun m => IsSnakeName m.name ∧ m.fieldReport = []) s.models
  have hreport : s.report = [] ↔
      (s.models.map Model.name).Nodup ∧ ∀ m ∈ s.models, IsSnakeName m.name ∧ m.fieldReport = [] := by
    unfold report
    rw [List.flatMap_eq_nil_iff, nodup_map_iff_zipIdx, ← hsnake, ← forall₂_and]
    refine forall₂_congr fun (m, i) _ => ?_
    dsimp only
    rw [List.append_eq_nil_iff, List.append_eq_nil_iff, and_assoc]
    split <;> split <;> simp_all
  rw [hreport]
  simp only [Model.fieldReport_eq_nil_iff]
  exact ⟨fun ⟨hmodels, hall⟩ => ⟨hmodels, fun m hm => (hall m hm).2.1,
      fun m hm => ⟨(hall m hm).1, (hall m hm).2.2⟩⟩,
    fun h => ⟨h.models, fun m hm => ⟨(h.snake m hm).1, h.fields m hm, (h.snake m hm).2⟩⟩⟩

theorem references_eq_nil_iff :
    s.models.flatMap (·.referenceFaults s.modelNames) = [] ↔ s.KeepsReferences := by
  rw [List.flatMap_eq_nil_iff]
  simp only [Model.referenceFaults_eq_nil_iff]
  exact ⟨fun h => ⟨fun m hm => (h m hm).1, fun m hm => (h m hm).2.1, fun m hm => (h m hm).2.2⟩,
    fun h m hm => ⟨h.targets m hm, h.keys m hm, h.members m hm⟩⟩

/-- **The analysis of names is exact.**  Of a schema that is read from a source, with faults or
without, the rules find in the order of the source what its models and fields break by themselves,
each once and at its place, and nothing else.  The strict rules find after that, model by model, each
relation that leads to no model, each key that is no field though a column should hold it, and each
member of a block that is no field, as often as it stands there.  So nothing is found if and only if
all rules are kept. -/
theorem violations_exact (source : String) (s : Schema) (faults : List SyntaxFault)
    (h : Schema.ofTokens (Token.scan source).tokens = .ok ⟨some s, faults⟩) :
    s.violations false = s.report ∧
      (s.report.map SemanticFault.position).Pairwise (· ≤ ·) ∧
      (∃ rests, s.violations true = s.report ++ rests.flatten ∧
        List.Forall₂ (fun m rest => List.Perm rest
          (m.unknownTargets s.modelNames ++ m.unknownKeys ++ m.unknownMembers)) s.models rests) ∧
      (s.violations false = [] ↔ s.KeepsNames) ∧
      (s.violations true = [] ↔ s.KeepsNames ∧ s.KeepsReferences) := by
  obtain ⟨hwords, hplaces⟩ := declared_of_scan h
  have hnames : s.violations false = s.report := by
    rw [violations, if_neg Bool.false_ne_true, List.append_nil, modelFaults_eq hwords]
  have hstrict : s.violations true =
      s.report ++ s.models.flatMap (·.referenceFaults s.modelNames) := by
    rw [violations, if_pos rfl, modelFaults_eq hwords]
  refine ⟨hnames, report_inOrder hplaces,
    ⟨s.models.map (·.referenceFaults s.modelNames), ?_, ?_⟩, ?_, ?_⟩
  · rw [hstrict, List.flatMap_def]
  · rw [List.forall₂_map_right_iff, List.forall₂_same]
    exact fun m _ => Model.referenceFaults_perm s.modelNames
  · rw [hnames, report_eq_nil_iff]
  · rw [hstrict, List.append_eq_nil_iff, report_eq_nil_iff, references_eq_nil_iff]

/-- Two models of one name: one with two fields of one name, which is no snake name, and one with a
relation whose names are declared nowhere. -/
def twinSource : String :=
  "model user \x7b\n  Id int\n  Id int\n\x7d\nmodel user \x7b\n  home town @many_to_one(key)\n\x7d\n"

def twins : Schema :=
  ⟨[{ name := "user"
      fields := [{ name := "Id", typeName := "int", position := ⟨2, 3⟩ },
        { name := "Id", typeName := "int", position := ⟨3, 3⟩ }]
      position := ⟨1, 1⟩ },
    { name := "user"
      fields := [{ name := "home", typeName := "town", relation := some ⟨.manyToOne, some "key"⟩
                   position := ⟨6, 3⟩ }]
      position := ⟨5, 1⟩ }]⟩

set_option maxRecDepth 100000 in
/-- **The violations of the twins**: two of case, one field twice, and one model twice. -/
theorem violations_twins :
    Schema.ofTokens (Token.scan twinSource).tokens = .ok ⟨some twins, []⟩ ∧
      twins.violations false = twins.report ∧
      twins.report = [⟨.fieldCase "Id", ⟨2, 3⟩⟩, ⟨.duplicateField "Id" "user", ⟨3, 3⟩⟩,
        ⟨.fieldCase "Id", ⟨3, 3⟩⟩, ⟨.duplicateModel "user", ⟨5, 1⟩⟩] := by
  have hread : Schema.ofTokens (Token.scan twinSource).tokens = .ok ⟨some twins, []⟩ := by
    with_unfolding_all rfl
  exact ⟨hread, (violations_exact _ _ _ hread).1, by decide +kernel⟩

end Schema

end Schemata
