import Schemata.Proofs.Plan.Statements

/-!
# Proofs — how planning fails

Planning has one way to fail: a column of the schema that is wanted has a literal for a default
that is not one for its type (`Field.IllTyped`).  Which literals are for which types is a table
(`Literal.IsFor`).

* `Field.defaultExpression_failsWith` — the expression of a default fails for such a column only,
  and with an error that names it; the type of a column never fails, so neither do the keys of a
  join table.
* `Plan.createAll_failsWith`, `Plan.diff_failsWith` — so the errors of a whole plan are about
  columns of the wanted schema (`Schema.Blames`), whatever is deployed: of an old column only
  the type is asked for, and never the default.
* `Plan.createAll_fails_iff` — with nothing deployed, one such column is enough.
-/

namespace Schemata

/-- The literals that a column of a type can have for a default. -/
inductive Literal.IsFor : Literal → Scalar → Prop
  | boolean (b : Bool) : IsFor (.bool b) .boolean
  | int (n : Int) : IsFor (.int n) .int
  | whole (n : Int) : IsFor (.int n) .float
  | float (x : Binary64) : IsFor (.float x) .float
  | string (t : String) : IsFor (.text t) .string
  | date (t : String) : IsFor (.text t) .date
  | datetime (t : String) : IsFor (.text t) .datetime
  | json (t : String) : IsFor (.text t) .json

/-- A literal is written in a type exactly if it is one for the type. -/
theorem Literal.isSome_expression?_iff {v : Literal} {s : Scalar} :
    (v.expression? s).isSome ↔ v.IsFor s := by
  constructor
  · intro h
    cases s <;> cases v <;> first | constructor | simp [Literal.expression?] at h
  · intro h
    cases h <;> rfl

/-- A column with a literal for a default that is not one for its type. -/
structure Field.IllTyped (f : Field) (t : Scalar) (v : Literal) : Prop where
  type : f.scalar? = some t
  default : f.default = some (.literal v)
  unfit : ¬ v.IsFor t

/-- The errors about the columns of a schema. -/
inductive Schema.Blames (s : Schema) : PlanError → Prop
  | column {m : Model} {f : Field} {t : Scalar} {v : Literal} (model : m ∈ s.models)
      (field : f ∈ m.fields) (illTyped : f.IllTyped t v) :
      Blames s (.illTyped v t.name m.name f.name)

namespace Field

/-- The errors about a column of a table. -/
inductive Blames (f : Field) (table : String) : PlanError → Prop
  | default {t : Scalar} {v : Literal} (illTyped : f.IllTyped t v) :
      Blames f table (.illTyped v t.name table f.name)

/-- The type of a field with a scalar type is called like that. -/
theorem typeName_eq_of_scalar? {f : Field} {t : Scalar} (h : f.scalar? = some t) :
    f.typeName = t.name := by
  have hname := List.find?_some h
  exact (beq_iff_eq.mp hname).symm

theorem IllTyped.isColumn {f : Field} {t : Scalar} {v : Literal} (h : f.IllTyped t v) :
    f.isColumn :=
  isColumn_iff.mpr ⟨t, h.type⟩

/-- A column whose default does not fit is ill typed, and the other way around. -/
theorem not_fits_iff {f : Field} (hf : f.isColumn) : ¬ f.Fits ↔ ∃ t v, f.IllTyped t v := by
  obtain ⟨t, ht⟩ := isColumn_iff.mp hf
  unfold Fits
  simp only [ht, Option.bind_some, Literal.isSome_expression?_iff]
  constructor
  · intro h
    push Not at h
    obtain ⟨v, hv, hunfit⟩ := h
    exact ⟨t, v, ht, hv, hunfit⟩
  · rintro ⟨t', v, htype, hv, hunfit⟩ h
    cases ht.symm.trans htype
    exact hunfit (h v hv)

variable {f : Field} {d : Dialect} {table : String} {P : PlanError → Prop}

/-- A column has a type. -/
theorem columnType_failsWith (hf : f.isColumn) :
    (Journal.ofExcept (f.columnType d)).FailsWith P :=
  .of_ok (a := f.storedType d) (columnType_ok_iff.mpr ⟨hf, rfl⟩)

/-- **The expression of a default** fails for an ill-typed column only. -/
theorem defaultExpression_failsWith (hf : f.isColumn) :
    (f.defaultExpression d table).FailsWith (f.Blames table) := by
  intro e he
  obtain ⟨t, ht⟩ := isColumn_iff.mp hf
  unfold defaultExpression at he
  split at he
  next => cases he
  next g _ =>
      -- a generated default is written or, where it counts up, left out
      split at he
      next => cases he
      next => cases hk : f.isPrimaryKey <;> rw [hk] at he <;> cases he
  next v hv =>
      rw [ht, Option.bind_some] at he
      split at he
      next => cases he
      next hnone =>
          have hunfit : ¬ v.IsFor t := by
            rw [← Literal.isSome_expression?_iff, hnone]
            exact Bool.false_ne_true
          cases he
          rw [typeName_eq_of_scalar? ht]
          exact .default ⟨ht, hv, hunfit⟩

/-- The declaration of a column fails for an ill-typed one only. -/
theorem definition_failsWith (hf : f.isColumn) :
    (f.definition d table).FailsWith (f.Blames table) := by
  unfold definition
  refine (columnType_failsWith hf).bind fun _ _ => ?_
  split
  · exact Journal.failsWith_pure _
  · exact (defaultExpression_failsWith hf).bind fun _ _ => Journal.failsWith_pure _

theorem restatement_failsWith (hf : f.isColumn) :
    (f.restatement d table).FailsWith (f.Blames table) :=
  (columnType_failsWith hf).bind fun _ _ =>
    (defaultExpression_failsWith hf).bind fun _ _ => Journal.failsWith_pure _

end Field

namespace Plan

/-! ### New tables -/

section

variable {d : Dialect} {s : Schema} {m : Model} {f : Field}

theorem blames_of_mem (hm : m ∈ s.models) (hf : f ∈ m.columns) {e : PlanError}
    (h : f.Blames m.name e) : s.Blames e := by
  cases h with
  | default illTyped => exact .column hm (Model.mem_columns_iff.mp hf).1 illTyped

theorem createTable_failsWith (hm : m ∈ s.models) : (createTable d m).FailsWith s.Blames := by
  refine (Journal.FailsWith.mapM fun f hf => ?_).bind fun _ _ => Journal.failsWith_pure _
  exact (Field.definition_failsWith (Model.isColumn_of_mem_columns hf)).mono fun _ =>
    blames_of_mem hm hf

theorem createTables_failsWith (names : List String) :
    (createTables d s names).FailsWith s.Blames := by
  refine (Journal.FailsWith.of_ok (Dependencies.sorted_outcome _ _)).bind fun order _ => ?_
  refine .mapM fun m hm => createTable_failsWith ?_
  obtain ⟨name, -, hname⟩ := List.mem_filterMap.mp hm
  exact (Schema.mem_of_model? hname).1

theorem createAll_failsWith : (createAll d s).FailsWith s.Blames := by
  refine (createTables_failsWith _).bind fun _ _ => ?_
  refine .bind (.mapM fun j _ => ?_) fun _ _ => Journal.failsWith_pure _
  exact .of_ok (createJoinTable_outcome d s j)

/-- **With nothing deployed**, a plan fails exactly if a column is ill typed. -/
theorem createAll_fails_iff (hnames : s.modelNames.Nodup) :
    (∃ e, (createAll d s).outcome = .error e) ↔
      ∃ m ∈ s.models, ∃ f ∈ m.fields, ∃ t v, f.IllTyped t v := by
  constructor
  · rintro ⟨e, he⟩
    cases createAll_failsWith e he with
    | column hm hf h => exact ⟨_, hm, _, hf, _, _, h⟩
  · rintro ⟨m, hm, f, hf, t, v, h⟩
    cases hout : (createAll d s).outcome with
    | error e => exact ⟨e, rfl⟩
    | ok stmts =>
        -- every model is created, so every default of a column was looked at
        have hmem : m ∈ inOrder s s.modelNames :=
          (mem_inOrder_iff hnames).mpr ⟨hm, List.mem_map_of_mem hm⟩
        have hfits := (createAll_ok_iff.mp hout).1 m hmem f
          (Model.mem_columns_iff.mpr ⟨hf, h.isColumn⟩)
        exact absurd hfits ((Field.not_fits_iff h.isColumn).mpr ⟨t, v, h⟩)

end

/-! ### Altered tables -/

section

variable {d : Dialect} {table : String} {old new : Field}

/-- A change of default fails for the wanted column only. -/
theorem alterDefault_failsWith (hn : new.isColumn) :
    (alterDefault d table old new).FailsWith (new.Blames table) := by
  unfold alterDefault
  split
  · exact Journal.failsWith_pure _
  · split
    · exact Journal.failsWith_pure _
    · exact (Field.defaultExpression_failsWith hn).bind fun _ _ => Journal.failsWith_pure _

theorem modifyColumn_failsWith (hn : new.isColumn) :
    (modifyColumn d table new).FailsWith (new.Blames table) :=
  (Field.restatement_failsWith hn).bind fun _ _ => Journal.failsWith_pure _

/-- A column that is altered in place fails for the wanted one only. -/
theorem alterInPlace_failsWith (ho : old.isColumn) (hn : new.isColumn) :
    (alterInPlace d table old new).FailsWith (new.Blames table) := by
  refine (Field.columnType_failsWith ho).bind fun _ _ => ?_
  refine (Field.columnType_failsWith hn).bind fun _ _ => ?_
  dsimp only
  split
  · refine (modifyColumn_failsWith hn).bind fun _ _ => ?_
    exact (alterDefault_failsWith hn).bind fun _ _ => Journal.failsWith_pure _
  · exact (alterDefault_failsWith hn).bind fun _ _ => Journal.failsWith_pure _

/-- A column that cannot be altered fails for the wanted one only. -/
theorem alterRebuilding_failsWith (ho : old.isColumn) (hn : new.isColumn) :
    (alterRebuilding d table old new).FailsWith (new.Blames table) := by
  unfold alterRebuilding
  cases Default.sameOption old.default new.default with
  | true =>
      exact (Field.columnType_failsWith ho).bind fun _ _ =>
        (Field.columnType_failsWith hn).bind fun _ _ => Journal.failsWith_pure _
  | false =>
      exact (Field.defaultExpression_failsWith hn).bind fun _ _ =>
        (Field.columnType_failsWith ho).bind fun _ _ =>
          (Field.columnType_failsWith hn).bind fun _ _ => Journal.failsWith_pure _

/-- **The changes of a column** fail because of the new column only. -/
theorem alterColumn_failsWith (ho : old.isColumn) (hn : new.isColumn) :
    (alterColumn d table old new).FailsWith (new.Blames table) := by
  unfold alterColumn
  split
  · exact alterRebuilding_failsWith ho hn
  · exact alterInPlace_failsWith ho hn

end

section

variable {d : Dialect} {s : Schema}

/-- A column that is to be reached fails for itself only. -/
theorem reachColumn_failsWith {before after : Model} {f : Field} (hf : f.isColumn) :
    (reachColumn d before after f).FailsWith (f.Blames after.name) := by
  unfold reachColumn
  cases h : columnNamed before f.name with
  | some old => exact alterColumn_failsWith (isColumn_of_columnNamed h) hf
  | none => exact (Field.definition_failsWith hf).bind fun _ _ => Journal.failsWith_pure _

/-- An altered table fails for a column of the schema only. -/
theorem alterTable_failsWith {before after : Model} (hm : after ∈ s.models) :
    (alterTable d before after).FailsWith s.Blames := by
  refine (Journal.FailsWith.mapM fun f hf => ?_).bind fun _ _ => Journal.failsWith_pure _
  exact (reachColumn_failsWith (Model.isColumn_of_mem_columns hf)).mono fun _ =>
    blames_of_mem hm hf

/-- **Whatever is deployed**, a plan fails because of the wanted schema only. -/
theorem diff_failsWith (previous : Schema) : (diff d s previous).FailsWith s.Blames := by
  refine (createTables_failsWith _).bind fun _ _ => ?_
  refine .bind (.mapM fun m hm => ?_) fun _ _ => ?_
  · cases previous.model? m.name with
    | some before => exact alterTable_failsWith hm
    | none => exact Journal.failsWith_pure _
  · refine (Journal.FailsWith.of_ok (Dependencies.sorted_outcome _ _)).bind fun _ _ => ?_
    exact (Journal.FailsWith.of_ok rfl).bind fun _ _ => Journal.failsWith_pure _

end

end Plan

/-- **A plan** fails for a column of the wanted schema only. -/
theorem plan_failsWith (d : Dialect) (s : Schema) (previous : Option Schema) :
    (plan d s previous).FailsWith s.Blames := by
  cases previous with
  | none => exact Plan.createAll_failsWith
  | some previous => exact Plan.diff_failsWith previous

end Schemata
