import Schemata.Proofs.Database
import Schemata.Proofs.Number.Reading
import Schemata.Proofs.Plan.Statements
import Schemata.Proofs.Statement.Templates

/-!
# Proofs — quoting in plans

What stands in the statements of a plan without quotes.  It is either a word of the dialect, one of
a few (`Dialect.words`), or what the dialect writes for a default (`Default.written?`), where
everything that is no string is a number, a truth value or an expression of the dialect's own.  So
neither names nor strings ever get out of their quotes:

* `planScript_quoting` — a scan of a statement of a plan finds its names and its strings, and
  nothing else of what stands in the schemas.
-/

namespace Schemata

open Sql

/-! ### Words of the dialects -/

namespace Dialect

/-- The words that stand in declarations: types, and what makes a column count up. -/
def words (d : Dialect) : List String :=
  ["", d.identitySuffix, "SERIAL"] ++
    Scalar.all.flatMap fun s => [s.columnType false d, s.columnType true d]

theorem isBare_of_mem_words {d : Dialect} {w : String} (h : w ∈ d.words) : IsBare w := by
  have hall : ∀ w ∈ d.words, IsBare w := by cases d <;> decide +kernel
  exact hall w h

/-- The type of a column is one of the words. -/
theorem columnType_mem_words (s : Scalar) (isArray : Bool) (d : Dialect) :
    s.columnType isArray d ∈ d.words := by
  have hs : s ∈ Scalar.all := by cases s <;> decide
  refine List.mem_append_right _ (List.mem_flatMap.mpr ⟨s, hs, ?_⟩)
  cases isArray
  · exact List.mem_cons_self
  · exact List.mem_cons_of_mem _ List.mem_cons_self

/-- Words and expressions that are those of the dialect. -/
structure Writes (d : Dialect) (words : List String) (expressions : List Expression) : Prop where
  words : ∀ w ∈ words, w ∈ d.words
  expressions : ∀ e ∈ expressions, ∃ x : Default, x.written? d = some e

theorem writes_nil (d : Dialect) : d.Writes [] [] :=
  ⟨fun _ h => absurd h List.not_mem_nil, fun _ h => absurd h List.not_mem_nil⟩

end Dialect

/-- A type of a column has no marks of a key. -/
theorem plainType_columnType (s : Scalar) (isArray : Bool) (d : Dialect) :
    plainType (s.columnType isArray d) = s.columnType isArray d := by
  -- the dialects share most of their types, and it takes long to look for marks in one
  have hplain : ∀ t ∈ ["INT", "INTEGER", "TEXT", "VARCHAR(255)", "REAL", "FLOAT", "TINYINT(1)",
      "BOOLEAN", "JSONB", "JSON", "DATE", "TIMESTAMP", "DATETIME", "INTEGER[]", "VARCHAR(255)[]",
      "REAL[]", "BOOLEAN[]", "DATE[]", "TIMESTAMP[]"], plainType t = t := by decide +kernel
  refine hplain _ ?_
  cases s <;> cases isArray <;> cases d <;> decide

/-! ### Expressions are read to their end -/

section

variable {c : Char} {cs : List Char}

theorem ofSign?_of_digit (h : c.isDigit = true) : Quote.ofSign? c = none := by
  unfold Quote.ofSign?
  rw [if_neg (ne_of_digit h rfl), if_neg (ne_of_digit h rfl)]

theorem isBare_ofList_iff : IsBare (String.ofList cs) ↔ ∀ c ∈ cs, Quote.ofSign? c = none := by
  rw [IsBare, String.toList_ofList]

theorem isBare_of_isDigits {w : String} (h : IsDigits w.toList) : IsBare w :=
  fun c hc => ofSign?_of_digit (h c hc)

end

theorem isBare_toString_nat (n : Nat) : IsBare (toString n) := by
  refine isBare_of_isDigits ?_
  rw [Nat.toString_eq_repr, Nat.toList_repr]
  exact isDigits_toDigits n

theorem isBare_toString_int (n : Int) : IsBare (toString n) := by
  rw [Int.toString_eq_repr, Int.repr_eq_if]
  split
  · exact isBare_toString_nat n.toNat
  · exact isBare_append_iff.mpr ⟨by decide, isBare_toString_nat (-n).toNat⟩

namespace Binary64

theorem isBare_exponentText (e : Int) : IsBare (exponentText e) := by
  unfold exponentText
  rw [isBare_append_iff, isBare_append_iff]
  refine ⟨⟨?_, ?_⟩, isBare_toString_nat e.natAbs⟩ <;> split <;> decide

/-- A decimal number is written without quotes. -/
theorem isBare_decimalText (d : Decimal) : IsBare (decimalText d) := by
  have hdigits : ∀ c ∈ Nat.toDigits 10 d.digits, Quote.ofSign? c = none :=
    fun c hc => ofSign?_of_digit (isDigits_toDigits d.digits c hc)
  have hzeros : ∀ n, ∀ c ∈ List.replicate n '0', Quote.ofSign? c = none :=
    fun n c hc => ofSign?_of_digit (isDigits_replicate n c hc)
  have hpoint : Quote.ofSign? '.' = none := by decide
  have hzero : Quote.ofSign? '0' = none := by decide
  have htake : ∀ n, ∀ c ∈ (Nat.toDigits 10 d.digits).take n, Quote.ofSign? c = none :=
    fun n c hc => hdigits c (List.mem_of_mem_take hc)
  have hdrop : ∀ n, ∀ c ∈ (Nat.toDigits 10 d.digits).drop n, Quote.ofSign? c = none :=
    fun n c hc => hdigits c (List.mem_of_mem_drop hc)
  unfold decimalText
  dsimp only
  split
  next =>
      split
      next =>
          simp only [isBare_ofList_iff, List.forall_mem_append, List.forall_mem_cons]
          exact ⟨⟨hzero, hpoint, hzeros _⟩, hdigits⟩
      next =>
          split
          next =>
              simp only [isBare_ofList_iff, List.forall_mem_append]
              exact ⟨⟨hdigits, hzeros _⟩,
                List.forall_mem_cons.mpr ⟨hpoint, List.forall_mem_singleton.mpr hzero⟩⟩
          next =>
              simp only [isBare_ofList_iff, List.forall_mem_append, List.forall_mem_cons]
              exact ⟨htake _, hpoint, hdrop _⟩
  next =>
      refine isBare_append_iff.mpr ⟨?_, isBare_exponentText _⟩
      simp only [isBare_ofList_iff, List.forall_mem_append]
      refine ⟨htake 1, ?_⟩
      split
      · exact fun c hc => absurd hc List.not_mem_nil
      · exact List.forall_mem_cons.mpr ⟨hpoint, hdrop 1⟩

/-- A number of double precision is written without quotes. -/
theorem isBare_text (x : Binary64) : IsBare x.text := by
  unfold text
  split
  next negative => cases negative <;> decide
  next negative ticks =>
      refine isBare_append_iff.mpr ⟨?_, ?_⟩
      · split <;> decide
      · split
        · decide
        · exact isBare_decimalText _

end Binary64

/-- A text without quotes is read sign by sign. -/
theorem Expression.isSettled_of_isBare {w : String} (h : IsBare w) :
    (Expression.verbatim w).IsSettled := by
  have hscan : scan w = some (signs w) :=
    scan_eq_some_iff.mpr ⟨spaced_signs_iff.mpr h, flatMap_written_signs w⟩
  have hfixed : fixedStrings.lookup w = none := by
    have hquoted : ∀ p ∈ fixedStrings, ¬ IsBare p.1 := by decide
    refine List.lookup_eq_none_iff.mpr fun p hp => bne_iff_ne.mpr ?_
    rintro rfl
    exact hquoted p hp h
  refine ⟨_, hscan, contents_signs .name w, ?_⟩
  rw [contents_signs, hfixed]
  rfl

/-- What is written for a literal is read to its end. -/
theorem Literal.isSettled_written (v : Literal) : v.written.IsSettled := by
  cases v with
  | bool b => cases b <;> exact Expression.isSettled_of_isBare (by decide)
  | int n => exact Expression.isSettled_of_isBare (isBare_toString_int n)
  | float x => exact Expression.isSettled_of_isBare x.isBare_text
  | text t => trivial

/-- **What is written for a default is read to its end.** -/
theorem Default.isSettled_of_written? {d : Dialect} {x : Default} {e : Expression}
    (h : x.written? d = some e) : e.IsSettled := by
  cases x with
  | literal v =>
      cases h
      exact v.isSettled_written
  | call g =>
      obtain ⟨w, hw, rfl⟩ := Option.map_eq_some_iff.mp h
      cases g <;> cases d <;> cases hw
      all_goals first
        | exact Expression.isSettled_of_isBare (by decide)
        | exact ⟨_, rfl, by decide, by decide⟩

namespace Dialect.Writes

variable {d : Dialect} {st : Statement}

/-- Statements of the dialect's own words and expressions. -/
theorem isSettled (h : d.Writes st.words st.expressions) : st.IsSettled where
  bare w hw := isBare_of_mem_words (h.words w hw)
  settled e he := by
    obtain ⟨x, hx⟩ := h.expressions e he
    exact x.isSettled_of_written? hx

end Dialect.Writes

/-! ### What a plan writes -/

namespace Field

variable {f : Field}

theorem storedType_mem_words (h : f.isColumn) (d : Dialect) : f.storedType d ∈ d.words := by
  obtain ⟨s, hs⟩ := isColumn_iff.mp h
  rw [storedType, hs]
  exact Dialect.columnType_mem_words s f.isArray d

theorem exists_of_mem_storedDefault {d : Dialect} {e : Expression}
    (h : e ∈ (f.storedDefault d).toList) : ∃ x : Default, x.written? d = some e := by
  obtain ⟨x, -, hx⟩ := Option.bind_eq_some_iff.mp (Option.mem_toList.mp h)
  exact ⟨x, hx⟩

/-- What makes a column count up is one of the words. -/
theorem identity_mem_words (f : Field) (d : Dialect) :
    (if f.isIdentity then d.identitySuffix else "") ∈ d.words := by
  split
  · exact List.mem_cons_of_mem _ List.mem_cons_self
  · exact List.mem_cons_self

/-- The declaration of a column is of the dialect's words and expressions. -/
theorem writes_declaration (h : f.isColumn) (d : Dialect) :
    d.Writes (f.declaration d).words (f.declaration d).default.toList := by
  unfold declaration
  split
  · refine ⟨List.forall_mem_cons.mpr ⟨?_, List.forall_mem_singleton.mpr ?_⟩, ?_⟩
    · exact List.mem_cons_of_mem _ (List.mem_cons_of_mem _ List.mem_cons_self)
    · exact List.mem_cons_self
    · exact fun _ he => absurd he List.not_mem_nil
  · exact ⟨List.forall_mem_cons.mpr ⟨f.storedType_mem_words h d,
      List.forall_mem_singleton.mpr (f.identity_mem_words d)⟩, fun _ => exists_of_mem_storedDefault⟩

theorem writes_restated (h : f.isColumn) (d : Dialect) :
    d.Writes (f.restated d).words (f.restated d).default.toList :=
  ⟨List.forall_mem_cons.mpr ⟨f.storedType_mem_words h d,
    List.forall_mem_singleton.mpr (f.identity_mem_words d)⟩, fun _ => exists_of_mem_storedDefault⟩

end Field

/-- A table is of the dialect's words and expressions if the parts of its declaration are. -/
theorem Dialect.writes_createTable {d : Dialect} {table : String} {elements : List TableElement}
    (h : ∀ x ∈ elements, d.Writes x.words x.expressions) :
    d.Writes (Statement.createTable table elements).words
      (Statement.createTable table elements).expressions where
  words w hw := by
    obtain ⟨x, hx, hw⟩ := List.mem_flatMap.mp hw
    exact (h x hx).words w hw
  expressions e he := by
    obtain ⟨x, hx, he⟩ := List.mem_flatMap.mp he
    exact (h x hx).expressions e he

/-- The table of a model is of the dialect's words and expressions. -/
theorem Model.writes_creation (m : Model) (d : Dialect) :
    d.Writes (m.creation d).words (m.creation d).expressions := by
  refine Dialect.writes_createTable fun x hx => ?_
  rcases List.mem_append.mp hx with hx | hx
  · rcases List.mem_append.mp hx with hx | hx
    · obtain ⟨c, hc, rfl⟩ := List.mem_map.mp hx
      obtain ⟨f, hf, rfl⟩ := List.mem_map.mp hc
      exact Field.writes_declaration (isColumn_of_mem_columns hf) d
    · obtain ⟨columns, -, rfl⟩ := List.mem_map.mp hx
      exact d.writes_nil
  · obtain ⟨f, -, hf⟩ := List.mem_filterMap.mp hx
    unfold Plan.foreignKey? at hf
    split at hf <;> cases hf
    exact d.writes_nil

namespace Plan

variable {d : Dialect} {st : Statement}

/-- The type of a referenced key is one of the words. -/
theorem keyOf_mem_words (d : Dialect) (s : Schema) (model : String) :
    (keyOf d s model).2 ∈ d.words := by
  unfold keyOf
  split
  next f h =>
      obtain ⟨-, hcolumn⟩ := Option.filter_eq_some_iff.mp h
      obtain ⟨t, ht⟩ := Field.isColumn_iff.mp hcolumn
      have htype : f.storedType d = t.columnType f.isArray d := by rw [Field.storedType, ht]
      rw [htype, plainType_columnType]
      exact Dialect.columnType_mem_words t f.isArray d
  next => exact Dialect.columnType_mem_words .int false d

/-- A join table is of the dialect's words and expressions. -/
theorem writes_linkCreation (d : Dialect) (s : Schema) (j : JoinTable) :
    d.Writes (linkCreation d s j).words (linkCreation d s j).expressions := by
  have hcolumn : ∀ name model, d.Writes (joinColumn name (keyOf d s model).2).words
      (joinColumn name (keyOf d s model).2).expressions := fun name model =>
    ⟨List.forall_mem_cons.mpr ⟨keyOf_mem_words d s model,
      List.forall_mem_singleton.mpr List.mem_cons_self⟩, fun _ he => absurd he List.not_mem_nil⟩
  refine Dialect.writes_createTable (List.forall_mem_cons.mpr ⟨hcolumn _ _,
    List.forall_mem_cons.mpr ⟨hcolumn _ _, fun x hx => ?_⟩⟩)
  -- the keys and the pair are of names alone
  simp only [List.mem_cons, List.not_mem_nil, or_false] at hx
  rcases hx with rfl | rfl | rfl <;> exact d.writes_nil

/-- A change of uniqueness is made by the statement that makes it, or told of. -/
theorem writes_of_mem_alterUniqueness {add : Statement} {old new : Field}
    (hadd : d.Writes add.words add.expressions) (h : st ∈ alterUniqueness add old new) :
    d.Writes st.words st.expressions := by
  simp only [alterUniqueness, List.mem_ite_nil_left] at h
  obtain ⟨-, h⟩ := h
  split at h
  · rwa [List.mem_singleton.mp h]
  · rw [List.mem_singleton.mp h]
    exact d.writes_nil

/-- **The changes of a column.** -/
theorem writes_of_mem_changes {table : String} {old new : Field} (hnew : new.isColumn)
    (h : st ∈ changes d table old new) : d.Writes st.words st.expressions := by
  unfold changes at h
  split at h
  · simp only [rebuilding, List.mem_append, List.mem_ite_nil_left, List.mem_ite_nil_right,
      List.mem_singleton] at h
    rcases h with (⟨-, rfl⟩ | ⟨-, rfl⟩) | h
    · exact d.writes_nil
    · exact d.writes_nil
    · refine writes_of_mem_alterUniqueness ?_ h
      exact d.writes_nil
  · simp only [inPlace, List.mem_append, List.mem_ite_nil_right, List.mem_singleton] at h
    rcases h with (((h | ⟨-, rfl⟩) | h) | h) | h
    · unfold alterNullability at h
      split at h
      · rw [List.mem_singleton.mp h]
        exact d.writes_nil
      · rw [List.mem_ite_nil_right, List.mem_singleton] at h
        rw [h.2]
        exact d.writes_nil
    · exact Field.writes_restated hnew d
    · unfold defaultChanges at h
      split at h
      · rw [List.mem_singleton.mp h]
        exact ⟨fun _ hw => absurd hw List.not_mem_nil, fun _ => Field.exists_of_mem_storedDefault⟩
      · rw [List.mem_ite_nil_left, List.mem_singleton] at h
        rw [h.2]
        exact d.writes_nil
    · rw [typeChanges, List.mem_ite_nil_right, List.mem_singleton] at h
      rw [h.2]
      exact ⟨List.forall_mem_singleton.mpr (new.storedType_mem_words hnew d),
        fun _ he => absurd he List.not_mem_nil⟩
    · refine writes_of_mem_alterUniqueness ?_ h
      exact d.writes_nil

/-- The statements that alter a table are of the dialect's words and expressions. -/
theorem writes_of_mem_tableChanges {before after : Model} (h : st ∈ tableChanges d before after) :
    d.Writes st.words st.expressions := by
  rcases List.mem_append.mp h with h | h
  · obtain ⟨f, hf, h⟩ := List.mem_flatMap.mp h
    have hcolumn := Model.isColumn_of_mem_columns hf
    unfold reach at h
    split at h
    · exact writes_of_mem_changes hcolumn h
    · rw [List.mem_singleton.mp h]
      exact Field.writes_declaration hcolumn d
  · obtain ⟨f, -, rfl⟩ := List.mem_map.mp h
    exact d.writes_nil

/-- **The statements of a migration** are of the dialect's words and expressions. -/
theorem writes_of_mem_migration {desired previous : Schema}
    (h : st ∈ migration d desired previous) : d.Writes st.words st.expressions := by
  rcases List.mem_append.mp h with h | h
  · rcases List.mem_append.mp h with h | h
    · obtain ⟨m, -, rfl⟩ := List.mem_map.mp h
      exact m.writes_creation d
    · obtain ⟨m, -, h⟩ := List.mem_flatMap.mp h
      unfold kept at h
      split at h
      · exact writes_of_mem_tableChanges h
      · exact absurd h List.not_mem_nil
  · obtain ⟨table, -, rfl⟩ := List.mem_map.mp h
    exact d.writes_nil

end Plan

/-- **What stands without quotes** in a statement of a plan is of the dialect. -/
theorem writes_of_mem_plan {d : Dialect} {desired : Schema} {previous : Option Schema}
    {stmts : List Statement} (h : (plan d desired previous).outcome = .ok stmts) {st : Statement}
    (hst : st ∈ stmts) : d.Writes st.words st.expressions := by
  cases previous with
  | none =>
      obtain ⟨-, rfl⟩ := Plan.createAll_ok_iff.mp h
      rcases List.mem_append.mp hst with hst | hst
      · obtain ⟨m, -, rfl⟩ := List.mem_map.mp hst
        exact m.writes_creation d
      · obtain ⟨j, -, rfl⟩ := List.mem_map.mp hst
        exact Plan.writes_linkCreation d desired j
  | some previous =>
      obtain ⟨-, rfl⟩ := Plan.diff_ok_iff.mp h
      exact Plan.writes_of_mem_migration hst

/-! ### Quoting -/

/-- What a scan of a statement's text finds: the parts, and between the quotes of names the names of
the statement, between those of strings its strings, in their order. -/
structure Statement.IsRead (s : Style) (st : Statement) (parts : List Part) : Prop where
  scanned : scan (st.render s) = some parts
  names : contents .name parts = st.names
  texts : contents .string parts = st.texts

/-- A statement is read as its parts, where names are quoted with double quotes. -/
theorem Statement.isRead_parts {s : Style} (hquotes : s.quotes = true)
    (hdialect : s.dialect ≠ .mysql) {st : Statement} (h : st.IsSettled)
    (hst : st.isWarning = false) : st.IsRead s st.parts where
  scanned := scan_render h hquotes hdialect hst
  names := contents_name_parts h
  texts := contents_string_parts h

/-- **Quoting is airtight.**  Each statement that is executed is read to its end.  Its quoted parts
are its names and its strings, and what stands outside of quotes is of the dialect: any other names
and strings in the same statement would leave it as it is. -/
theorem planScript_quoting {s : Style} (hquotes : s.quotes = true) (hdialect : s.dialect ≠ .mysql)
    {desired : Schema} {previous : Option Schema} {script : Script}
    (h : (planScript s desired previous).outcome = .ok script) :
    ∃ stmts, (plan s.dialect desired previous).outcome = .ok stmts ∧
      script.executable = (stmts.filter fun st => !st.isWarning).map (·.render s) ∧
      ∀ st ∈ stmts.filter fun st => !st.isWarning,
        s.dialect.Writes st.words st.expressions ∧
        ∃ parts, st.IsRead s parts ∧ ∀ other : Statement, other.blank = st.blank →
          ∃ others, other.IsRead s others ∧ others.map Part.blank = parts.map Part.blank := by
  obtain ⟨stmts, hplan, rfl⟩ := Journal.map_ok_iff.mp h
  refine ⟨stmts, hplan, Script.executable_ofStatements s stmts, fun st hst => ?_⟩
  obtain ⟨hmem, hwarning⟩ := List.mem_filter.mp hst
  have hwrites := writes_of_mem_plan hplan hmem
  have hsettled := hwrites.isSettled
  have hwarning : st.isWarning = false := by simpa using hwarning
  refine ⟨hwrites, st.parts, st.isRead_parts hquotes hdialect hsettled hwarning, ?_⟩
  intro other hother
  exact ⟨other.parts, other.isRead_parts hquotes hdialect (hsettled.of_blank_eq hother)
    ((Statement.isWarning_eq_of_blank_eq hother).trans hwarning),
    Statement.map_blank_parts_eq hother⟩

/-- Greetings with nothing but a key. -/
def greetings : Model :=
  { name := "say \"hi\""
    fields := [{ name := "id", typeName := "int", isPrimaryKey := true }] }

/-- Greetings with a line that would drop a table if it were not quoted. -/
def linedGreetings : Model :=
  { greetings with
    fields := greetings.fields ++
      [{ name := "it's", typeName := "string"
         default := some (.literal (.text "'; DROP TABLE \"say\"; --")) },
       { name := "key\"", typeName := "string", default := some (.call .uuid) }] }

/-- The statements that add what is missing. -/
def lineStatements : List Statement :=
  [.addColumn "say \"hi\""
    { name := "it's", type := "VARCHAR(255)"
      default := some (.quoted "'; DROP TABLE \"say\"; --") },
   .addColumn "say \"hi\""
    { name := "key\"", type := "VARCHAR(255)"
      default := some (.verbatim "'uuid_placeholder'") }]

/-- The statement that adds the line, as it is written. -/
def lineText : String :=
  "ALTER TABLE \"say \"\"hi\"\"\" ADD COLUMN \"it's\" VARCHAR(255) " ++
    "DEFAULT '''; DROP TABLE \"say\"; --';"

/-- What would drop a table is a string of the statement that adds the line. -/
theorem linedGreetings_quoting :
    (planScript ⟨.generic, true⟩ ⟨[linedGreetings]⟩ (some ⟨[greetings]⟩)).outcome =
      .ok (.ofStatements ⟨.generic, true⟩ lineStatements) ∧
    ∃ parts, scan lineText = some parts ∧ contents .name parts = ["say \"hi\"", "it's"] ∧
      contents .string parts = ["'; DROP TABLE \"say\"; --"] := by
  have hscript : (planScript ⟨.generic, true⟩ ⟨[linedGreetings]⟩ (some ⟨[greetings]⟩)).outcome =
      .ok (.ofStatements ⟨.generic, true⟩ lineStatements) := by with_unfolding_all rfl
  obtain ⟨stmts, hplan, -, hread⟩ := planScript_quoting rfl (by decide) hscript
  have hstmts : stmts = lineStatements :=
    Except.ok.inj (hplan.symm.trans (by with_unfolding_all rfl))
  obtain ⟨-, parts, hparts, -⟩ := hread _ (by rw [hstmts]; exact List.mem_cons_self)
  exact ⟨hscript, parts, hparts.scanned, hparts.names, hparts.texts⟩

end Schemata
