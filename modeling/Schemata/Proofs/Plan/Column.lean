import Schemata.Plan.Column
import Schemata.Proofs.Outcome

/-!
# Proofs — columns of a plan

What planning says of a column, without the journal.  Whether a default can be written is one
question (`Field.Fits`), and what is written is another, which the type of the column has no part
in (`Default.written?`).  So each of the functions that declare a column ends well exactly when
the field is a column whose default fits, and then with one declaration:

* `Field.columnType_ok_iff`, `Field.defaultExpression_ok_iff` — the type and the default.
* `Field.definition_ok_iff` — the declaration in a new table or of a new column.
* `Field.restatement_ok_iff` — the declaration of a column that is there already.
-/

namespace Schemata

/-- A literal as an expression, whatever the type of the column. -/
def Literal.written : Literal → Expression
  | .bool b => .verbatim (if b then "true" else "false")
  | .int n => .verbatim (toString n)
  | .float x => .verbatim x.text
  | .text t => .quoted t

/-- The type decides whether a literal is written, and not how. -/
theorem Literal.expression?_eq_some_iff {s : Scalar} {v : Literal} {e : Expression} :
    v.expression? s = some e ↔ (v.expression? s).isSome ∧ e = v.written := by
  cases s <;> cases v <;> simp only [Literal.expression?, Literal.written] <;> grind

/-- A default as an expression; a column that counts up has none. -/
def Default.written? (d : Dialect) : Default → Option Expression
  | .literal v => some v.written
  | .call g => (g.expression? d).map .verbatim

namespace Field

/-- The type that the database holds for the field's column. -/
def storedType (f : Field) (d : Dialect) : String :=
  match f.scalar? with
  | some s => s.columnType f.isArray d
  | none => ""

/-- No stored type is that of a key that counts up. -/
theorem storedType_ne_serial (f : Field) (d : Dialect) : f.storedType d ≠ "SERIAL" := by
  unfold storedType
  split
  next s _ => cases s <;> cases f.isArray <;> cases d <;> decide
  next => decide

/-- The default that the database holds for the field's column. -/
def storedDefault (f : Field) (d : Dialect) : Option Expression := f.default.bind (·.written? d)

/-- A literal default, if the field has one, is one for its type. -/
def Fits (f : Field) : Prop :=
  ∀ v, f.default = some (.literal v) → (f.scalar?.bind v.expression?).isSome

/-- What is declared of the field's column in a new table or as a new column. -/
def declaration (f : Field) (d : Dialect) : ColumnDefinition :=
  if f.isIdentity && d = .postgres then { name := f.name, type := "SERIAL", isKey := true }
  else
    { name := f.name
      type := f.storedType d
      isKey := f.isPrimaryKey
      identity := if f.isIdentity then d.identitySuffix else ""
      isUnique := f.isUnique
      default := f.storedDefault d
      isNotNull := f.isNotNull }

/-- What is declared of the field's column when it is there already. -/
def restated (f : Field) (d : Dialect) : ColumnDefinition :=
  { name := f.name
    type := f.storedType d
    identity := if f.isIdentity then d.identitySuffix else ""
    default := f.storedDefault d
    isNotNull := f.isNotNull }

@[simp] theorem declaration_name (f : Field) (d : Dialect) : (f.declaration d).name = f.name := by
  unfold declaration
  split <;> rfl

theorem isColumn_iff {f : Field} : f.isColumn ↔ ∃ s, f.scalar? = some s := Option.isSome_iff_exists

/-- A column that counts up is a key with no literal for a default. -/
theorem default_of_isIdentity {f : Field} (h : f.isIdentity) :
    f.isPrimaryKey ∧ f.default = some (.call .autoincrement) := by
  simpa [isIdentity, isAutoincrement] using h

/-- A key is declared as one. -/
theorem isKey_declaration (f : Field) (d : Dialect) :
    (f.declaration d).isKey = f.isPrimaryKey := by
  unfold declaration
  split
  next h => exact (default_of_isIdentity (Bool.and_eq_true_iff.mp h).1).1.symm
  next => rfl

/-- A column that holds no null is declared so, be it by its key. -/
theorem isNotNull_declaration (f : Field) (d : Dialect) :
    (f.isPrimaryKey || (f.declaration d).isNotNull) = f.isNotNull := by
  unfold declaration isNotNull
  split
  next h => simp [(default_of_isIdentity (Bool.and_eq_true_iff.mp h).1).1]
  next => cases f.isPrimaryKey <;> simp

/-- A column that is unique is declared so, unless it is a key. -/
theorem isUnique_declaration (f : Field) (d : Dialect) :
    ((f.declaration d).isUnique && !f.isPrimaryKey) = f.hasUniqueConstraint := by
  unfold declaration hasUniqueConstraint
  split
  next h => simp [(default_of_isIdentity (Bool.and_eq_true_iff.mp h).1).1]
  next => rfl

theorem fits_of_not_literal {f : Field} (h : ∀ v, f.default ≠ some (.literal v)) : f.Fits :=
  fun v hv => absurd hv (h v)

theorem fits_of_isIdentity {f : Field} (h : f.isIdentity) : f.Fits :=
  fits_of_not_literal fun v => by rw [(default_of_isIdentity h).2]; simp

/-- A column has a type exactly if it is one, and then it is the stored type. -/
theorem columnType_ok_iff {f : Field} {d : Dialect} {t : String} :
    f.columnType d = .ok t ↔ f.isColumn ∧ t = f.storedType d := by
  unfold columnType isColumn storedType
  cases f.scalar? with
  | none => simp
  | some s => exact ⟨fun h => by cases h; exact ⟨rfl, rfl⟩, fun h => by rw [h.2]⟩

/-- The expression of a default is found exactly if it fits, and then it is the stored default. -/
theorem defaultExpression_ok_iff {f : Field} {d : Dialect} {model : String}
    {e : Option Expression} :
    (f.defaultExpression d model).outcome = .ok e ↔ f.Fits ∧ e = f.storedDefault d := by
  unfold defaultExpression storedDefault
  split
  next h =>
      have hfits : f.Fits := fits_of_not_literal fun v => by rw [h]; simp
      rw [Journal.pure_ok_iff, h]
      exact ⟨fun he => ⟨hfits, he.symm⟩, fun he => he.2.symm⟩
  next g h =>
      have hfits : f.Fits := fits_of_not_literal fun v => by rw [h]; simp
      have hg : (Default.call g).written? d = (g.expression? d).map .verbatim := rfl
      rw [h, Option.bind_some, hg]
      cases g.expression? d with
      | some text =>
          rw [Journal.pure_ok_iff]
          exact ⟨fun he => ⟨hfits, he.symm⟩, fun he => he.2.symm⟩
      | none =>
          -- counting up on a column that is no key is only told of
          cases f.isPrimaryKey <;>
            exact ⟨fun he => ⟨hfits, (Except.ok.inj he).symm⟩, fun he => by rw [he.2]; rfl⟩
  next v h =>
      rw [h, Option.bind_some]
      cases hv : f.scalar?.bind v.expression? with
      | none =>
          refine ⟨fun he => absurd he Journal.fail_ne_ok, fun he => ?_⟩
          have := he.1 v h
          rw [hv] at this
          cases this
      | some x =>
          obtain ⟨s, -, hs⟩ := Option.bind_eq_some_iff.mp hv
          obtain ⟨-, rfl⟩ := Literal.expression?_eq_some_iff.mp hs
          rw [Journal.pure_ok_iff]
          refine ⟨fun he => ⟨fun w hw => ?_, he.symm⟩, fun he => he.2.symm⟩
          rw [h] at hw
          cases hw
          rw [hv]
          rfl

/-- **The declaration of a column**, in a new table or as a new column. -/
theorem definition_ok_iff {f : Field} {d : Dialect} {model : String} {c : ColumnDefinition} :
    (f.definition d model).outcome = .ok c ↔ f.isColumn ∧ f.Fits ∧ c = f.declaration d := by
  unfold definition declaration
  rw [Journal.bind_ok_iff]
  simp only [Journal.ofExcept_ok_iff, columnType_ok_iff]
  split
  next h =>
      have hfits : f.Fits := fits_of_isIdentity (Bool.and_eq_true_iff.mp h).1
      simp only [Journal.pure_ok_iff]
      exact ⟨fun ⟨_, ⟨hc, _⟩, hx⟩ => ⟨hc, hfits, hx.symm⟩,
        fun ⟨hc, _, hx⟩ => ⟨_, ⟨hc, rfl⟩, hx.symm⟩⟩
  next h =>
      simp only [Journal.bind_ok_iff, Journal.pure_ok_iff, defaultExpression_ok_iff]
      constructor
      · rintro ⟨_, ⟨hc, rfl⟩, _, ⟨hfits, rfl⟩, rfl⟩
        exact ⟨hc, hfits, rfl⟩
      · rintro ⟨hc, hfits, rfl⟩
        exact ⟨_, ⟨hc, rfl⟩, _, ⟨hfits, rfl⟩, rfl⟩

/-- **The declaration of a column that is there already.** -/
theorem restatement_ok_iff {f : Field} {d : Dialect} {model : String} {c : ColumnDefinition} :
    (f.restatement d model).outcome = .ok c ↔ f.isColumn ∧ f.Fits ∧ c = f.restated d := by
  unfold restatement restated
  simp only [Journal.bind_ok_iff, Journal.ofExcept_ok_iff, columnType_ok_iff,
    defaultExpression_ok_iff, Journal.pure_ok_iff]
  constructor
  · rintro ⟨_, ⟨hc, rfl⟩, _, ⟨hfits, rfl⟩, rfl⟩
    exact ⟨hc, hfits, rfl⟩
  · rintro ⟨hc, hfits, rfl⟩
    exact ⟨_, ⟨hc, rfl⟩, _, ⟨hfits, rfl⟩, rfl⟩

end Field

end Schemata
