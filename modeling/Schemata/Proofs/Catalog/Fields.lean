import Schemata.Proofs.Catalog.Defaults
import Schemata.Proofs.Catalog.Folding
import Schemata.Proofs.Catalog.Reported
import Schemata.Proofs.Schema.Reading

/-!
# Proofs — catalogs — the field of a declared column

A field is declared as a column, the catalog reports the column, and the report is read as a field
again.  What comes back:

* `postgresScalar_reported` — the type, but for arrays of `json`, which are one value.
* `Literal.postgresDefault_written` — a literal, if its number is one of digits
  (`Literal.IsPlain`).
* `Field.postgresDefault_reported` — the default, if the column counts up only where it is a key
  and a number is written without an exponent (`Field.IsPlain`).  Some default comes back in any
  case.
* `Table.columnField_reported` — so the column is read as some field.
-/

namespace Schemata

-- Powers of whole numbers are the ones of the core library, whichever algebra is imported.
attribute [local instance (high)] instPowNat

open Numeral

/-! ### Types -/

theorem postgresScalar_columnType (s : Scalar) (isArray : Bool) :
    (reportedType? (s.columnType isArray .postgres)).map (fun t => postgresScalar t.1 t.2) =
      some (s, isArray && s != .json) := by
  cases s <;> cases isArray <;> decide +kernel

theorem postgresScalar_serial :
    (reportedType? "SERIAL").map (fun t => postgresScalar t.1 t.2) = some (.int, false) := by
  decide +kernel

/-- **The type** of a column is read back.  A column that counts up is one of integers. -/
theorem postgresScalar_reported {r : Column} {f : Field} {s : Scalar}
    (h : r.Reports (f.declaration .postgres)) (hs : f.scalar? = some s) :
    postgresScalar r.dataType r.elementType =
      if f.isIdentity then (.int, false) else (s, f.isArray && s != .json) := by
  have htype := h.type
  unfold Field.declaration at htype
  cases hid : f.isIdentity with
  | true =>
      have hserial := postgresScalar_serial
      simp only [hid, decide_true, Bool.and_self, if_true] at htype
      rw [htype] at hserial
      exact Option.some.inj hserial
  | false =>
      have hcolumn := postgresScalar_columnType s f.isArray
      simp only [hid, Bool.false_and, Bool.false_eq_true, if_false, Field.storedType, hs] at htype
      rw [htype] at hcolumn
      exact Option.some.inj hcolumn

/-! ### Defaults -/

/-- An integer that was read has no more digits than are read. -/
theorem Literal.natAbs_lt_of_isRead {n : Int} (h : (Literal.int n).IsRead) :
    n.natAbs < 10 ^ integerDigitLimit := by
  obtain ⟨text, htext⟩ := h
  rw [ofNumeral_ok_iff] at htext
  split at htext
  · obtain ⟨x, -, hx⟩ := htext
    cases hx
  · obtain ⟨m, hm, hn⟩ := htext
    cases hn
    exact Numeral.natAbs_lt_of_integer hm

/-- A number with a point that was read is one of double precision. -/
theorem Literal.isDouble_of_isRead {x : Binary64} (h : (Literal.float x).IsRead) : x.IsDouble := by
  obtain ⟨text, htext⟩ := h
  rw [ofNumeral_ok_iff] at htext
  split at htext
  · obtain ⟨y, hy, hx⟩ := htext
    cases hx
    exact Numeral.isDouble_of_fraction hy
  · obtain ⟨n, -, hn⟩ := htext
    cases hn

/-- The default comes back as it was declared: it counts up only if it is that of a key, and a
number of double precision is written with digits and a point. -/
structure Field.IsPlain (f : Field) : Prop where
  counting : f.isAutoincrement → f.isIdentity
  decimal : ∀ x, f.default = some (.literal (.float x)) →
    ∀ c ∈ x.text.toList, c.isDigit = true ∨ c = '.' ∨ c = '-'

/-- A number that is written with digits and a point is read back. -/
theorem Binary64.isPointed_of_plain {x : Binary64} (hx : x.IsDouble)
    (hplain : ∀ c ∈ x.text.toList, c.isDigit = true ∨ c = '.' ∨ c = '-') :
    ∃ negative ws ps, IsPointed x.text negative ws ps ∧ Numeral.fraction x.text = .ok x := by
  rcases text_cases hx with hpointed | ⟨negative, ws, ps, hscientific⟩ | ⟨negative, rfl⟩
  · exact hpointed
  · obtain ⟨-, -, rest, htext⟩ := hscientific
    have hexponent : 'e' ∈ x.text.toList := by
      rw [htext, String.toList_ofList]
      cases negative <;> simp [Numeral.signed]
    exact absurd (hplain 'e' hexponent) (by decide)
  · have hletter : 'i' ∈ (text (.infinite negative)).toList := by cases negative <;> decide
    exact absurd (hplain 'i' hletter) (by decide)

/-- A numeral of digits, with a minus sign or none, and with a point between digits or none. -/
def Numeral.IsPlain (text : String) : Prop :=
  ∃ negative ws ps, ws ≠ [] ∧ IsDigits ws ∧ IsDigits ps ∧
    text = String.ofList (signed negative (pointed ws ps))

/-- A literal that is read back from its text, and written with digits if it is a number: an integer
of no more digits than are read, as any is that was read (`Literal.natAbs_lt_of_isRead`), or a
number of double precision whose text has no exponent. -/
def Literal.IsPlain : Literal → Prop
  | .bool _ => True
  | .int n => n.natAbs < 10 ^ integerDigitLimit
  | .float x => x.IsDouble ∧ Numeral.IsPlain x.text
  | .text _ => True

namespace Literal

variable {v : Literal} {s : Scalar}

/-- A plain number is written with a point, and read back. -/
theorem isPointed_of_isPlain {x : Binary64} (h : (Literal.float x).IsPlain) :
    ∃ negative ws ps, Binary64.IsPointed x.text negative ws ps ∧ fraction x.text = .ok x := by
  obtain ⟨hx, negative, ws, ps, -, hw, hp, htext⟩ := h
  refine Binary64.isPointed_of_plain hx fun c hc => ?_
  rw [htext, String.toList_ofList] at hc
  have hbody : c ∈ pointed ws ps → c.isDigit = true ∨ c = '.' ∨ c = '-' := fun h =>
    (mem_pointed hw hp h).imp_right .inl
  cases negative with
  | false => exact hbody hc
  | true =>
      rcases List.mem_cons.mp hc with rfl | hc
      · exact .inr (.inr rfl)
      · exact hbody hc

theorem isPlain_of_decimal {x : Binary64} (hx : x.IsDouble)
    (h : ∀ c ∈ x.text.toList, c.isDigit = true ∨ c = '.' ∨ c = '-') :
    (Literal.float x).IsPlain := by
  obtain ⟨negative, ws, ps, hpointed, -⟩ := Binary64.isPointed_of_plain hx h
  exact ⟨hx, negative, ws, ps, hpointed.whole.1, hpointed.whole.2, hpointed.places.2,
    text_eq_pointed hpointed⟩

/-- A text is a literal of a column that holds no numbers. -/
theorem name_ne_of_text {t : String} (h : ((Literal.text t).expression? s).isSome) :
    s.name ≠ Scalar.int.name ∧ s.name ≠ Scalar.float.name := by
  cases s <;> first | decide | cases h

/-- **A literal** is read back from what is shown of it. -/
theorem postgresDefault_written (hfits : (v.expression? s).isSome) (hplain : v.IsPlain)
    {raw : Option String} (hraw : Expression.IsShownAs (some v.written) raw) :
    postgresDefault raw s.name = .ok (some (.literal v)) := by
  cases v with
  | bool b =>
      cases hraw
      exact postgresDefault_bool b s.name
  | int n =>
      cases hraw
      exact postgresDefault_int hplain s.name
  | float x =>
      cases hraw
      obtain ⟨negative, ws, ps, hpointed, hread⟩ := isPointed_of_isPlain hplain
      exact postgresDefault_float hpointed hread s.name
  | text t =>
      obtain ⟨type, hquote, rfl⟩ := hraw
      exact postgresDefault_string hquote (name_ne_of_text hfits) t

end Literal

namespace Field

variable {f : Field} {s : Scalar} {raw : Option String}

/-- What is reported of the default of a column that is no counting key. -/
theorem reportsDefault_iff (hid : f.isIdentity = false) :
    ReportsDefault (f.declaration .postgres) raw ↔
      Expression.IsShownAs (f.storedDefault .postgres) raw := by
  have hdeclared : f.declaration .postgres =
      { name := f.name
        type := f.storedType .postgres
        isKey := f.isPrimaryKey
        isUnique := f.isUnique
        default := f.storedDefault .postgres
        isNotNull := f.isNotNull } := by
    simp [declaration, hid]
  unfold ReportsDefault
  rw [hdeclared, if_neg (f.storedType_ne_serial .postgres)]
  cases f.storedDefault .postgres with
  | none => exact Iff.rfl
  | some e => cases e <;> exact Iff.rfl

/-- A literal that fits its column comes back as some default, and as itself if it is plain. -/
theorem postgresDefault_literal {v : Literal} (hs : f.scalar? = some s) (hfits : f.Fits)
    (hread : f.IsRead) (hdefault : f.default = some (.literal v))
    (hraw : Expression.IsShownAs (some v.written) raw) :
    ∃ d, postgresDefault raw s.name = .ok d ∧ (f.IsPlain → d = some (.literal v)) := by
  have hv : v.IsRead := hread _ hdefault
  have hscalar : (v.expression? s).isSome := by
    have := hfits v hdefault
    rwa [hs] at this
  by_cases hplain : v.IsPlain
  · exact ⟨_, Literal.postgresDefault_written hscalar hplain hraw, fun _ => rfl⟩
  · -- of the literals that are read only a number with an exponent is not plain
    cases v with
    | bool b => exact absurd trivial hplain
    | int n => exact absurd (Literal.natAbs_lt_of_isRead hv) hplain
    | float x =>
        cases hraw
        have hx : x.IsDouble := Literal.isDouble_of_isRead hv
        obtain ⟨d, hd⟩ := postgresDefault_float_ok hx s.name
        exact ⟨d, hd, fun h =>
          absurd (Literal.isPlain_of_decimal hx (h.decimal x hdefault)) hplain⟩
    | text t => exact absurd trivial hplain

/-- **The default** of a column is read as some default, and as its own if it is plain. -/
theorem postgresDefault_reported (hs : f.scalar? = some s) (hfits : f.Fits) (hread : f.IsRead)
    (h : ReportsDefault (f.declaration .postgres) raw) :
    ∃ d, postgresDefault raw (if f.isIdentity then Scalar.int else s).name = .ok d ∧
      (f.IsPlain → d = f.default) := by
  cases hid : f.isIdentity with
  | true =>
      have hserial : (f.declaration .postgres).type = "SERIAL" := by simp [declaration, hid]
      unfold ReportsDefault at h
      rw [if_pos hserial] at h
      obtain ⟨sequence, rfl⟩ := h
      exact ⟨_, postgresDefault_nextval sequence _, fun _ => (default_of_isIdentity hid).2.symm⟩
  | false =>
      rw [reportsDefault_iff hid] at h
      unfold storedDefault at h
      cases hdefault : f.default with
      | none =>
          rw [hdefault] at h
          cases h
          exact ⟨_, postgresDefault_none _, fun _ => rfl⟩
      | some d =>
          rw [hdefault] at h
          cases d with
          | call g =>
              have hwritten : (Default.call g).written? .postgres =
                  (g.expression? .postgres).map .verbatim := rfl
              rw [Option.bind_some, hwritten] at h
              cases hg : g.expression? .postgres with
              | none =>
                  -- counting up is not declared of a column that is no key
                  rw [hg] at h
                  cases h
                  refine ⟨_, postgresDefault_none _, fun hplain => ?_⟩
                  have hauto : g = .autoincrement := by cases g <;> first | rfl | cases hg
                  have hcounts : f.isAutoincrement := by simp [isAutoincrement, hdefault, hauto]
                  rw [hplain.counting hcounts] at hid
                  cases hid
              | some text =>
                  rw [hg] at h
                  cases h
                  exact ⟨_, postgresDefault_call hg _, fun _ => rfl⟩
          | literal v =>
              refine postgresDefault_literal hs hfits hread hdefault ?_
              cases v <;> exact h

end Field

/-! ### Fields -/

namespace Table

/-- The field of a column with a default. -/
def shownField (t : Table) (c : Column) (default : Option Default) : Field :=
  { name := c.name
    typeName := (postgresScalar c.dataType c.elementType).1.name
    isArray := (postgresScalar c.dataType c.elementType).2
    isPrimaryKey := t.primaryKey.contains c.name
    isRequired := !c.isNullable && !t.primaryKey.contains c.name
    isUnique := t.uniques.contains [c.name] && !t.primaryKey.contains c.name
    default
    relation :=
      if (t.foreignKeys.map Prod.fst).contains c.name then some ⟨.manyToOne, some c.name⟩
      else none }

theorem scalar?_shownField {t : Table} {c : Column} {default : Option Default} :
    (t.shownField c default).scalar? = some (postgresScalar c.dataType c.elementType).1 := by
  unfold Field.scalar? shownField
  exact Scalar.ofName?_name _

theorem isColumn_shownField {t : Table} {c : Column} {default : Option Default} :
    (t.shownField c default).isColumn :=
  Field.isColumn_iff.mpr ⟨_, scalar?_shownField⟩

/-- The field of a column depends on its default alone. -/
theorem columnField_postgres (t : Table) (c : Column) :
    t.columnField .postgres c =
      (postgresDefault c.default (postgresScalar c.dataType c.elementType).1.name).map
        (t.shownField c) := by
  unfold columnField shownField
  -- which type it is makes no difference, and finding it out is long
  generalize postgresScalar c.dataType c.elementType = type
  rfl

theorem columnField_ok_iff {t : Table} {c : Column} {f : Field} :
    t.columnField .postgres c = .ok f ↔ ∃ d,
      postgresDefault c.default (postgresScalar c.dataType c.elementType).1.name = .ok d ∧
        f = t.shownField c d := by
  rw [columnField_postgres, Except.map_eq_ok_iff]
  exact exists_congr fun d => and_congr_right fun _ => eq_comm

/-- **The field** of a declared column: its type and its default are read, the default as its own
if it is plain. -/
theorem columnField_reported {t : Table} {r : Column} {f : Field} {s : Scalar}
    (h : r.Reports (f.declaration .postgres)) (hs : f.scalar? = some s) (hfits : f.Fits)
    (hread : f.IsRead) :
    ∃ d, t.columnField .postgres r = .ok (t.shownField r d) ∧ (f.IsPlain → d = f.default) := by
  obtain ⟨d, hd, hplain⟩ := Field.postgresDefault_reported hs hfits hread h.default
  refine ⟨d, columnField_ok_iff.mpr ⟨d, ?_, rfl⟩, hplain⟩
  rw [postgresScalar_reported h hs]
  cases hid : f.isIdentity <;> simpa [hid] using hd

/-- A column without a default of its own is read as some field. -/
theorem columnField_of_default {t : Table} {r : Column} {c : ColumnDefinition}
    (h : r.Reports c) (hdefault : c.default = none) : ∃ f, t.columnField .postgres r = .ok f := by
  have hraw := h.default
  unfold ReportsDefault at hraw
  rw [hdefault] at hraw
  split at hraw
  · obtain ⟨sequence, hraw⟩ := hraw
    refine ⟨_, columnField_ok_iff.mpr ⟨some (.call .autoincrement), ?_, rfl⟩⟩
    rw [hraw]
    exact postgresDefault_nextval sequence _
  · refine ⟨_, columnField_ok_iff.mpr ⟨none, ?_, rfl⟩⟩
    rw [hraw]
    exact postgresDefault_none _

end Table

end Schemata
