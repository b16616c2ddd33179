import Schemata.Proofs.Statement.Scanning
import Schemata.Statement.Rendering

/-!
# Proofs — statements — templates

What a statement is written from, part by part (`Statement.parts`): the signs of its template, the
names and strings that stand in it, and the words that stand there without quotes, which are the
types of columns and the expressions that are no strings.  Names are quoted, and not by the quote
of MySQL.

A statement is written from its parts if its words are what they are taken for
(`Statement.IsSettled`): types without quotes, and expressions that are read to their end.  Then

* `Statement.scan_render` — a scan finds the parts of the statement;
* `Statement.contents_name_parts`, `Statement.contents_string_parts` — the quoted ones are the names
  and strings of the statement, in their order;
* `Statement.map_blank_parts_eq` — what stands outside of quotes depends on none of them.
-/

namespace Schemata

open Sql

/-! ### What a statement takes -/

/-- The expressions of the dialects in which a string stands, with the string. -/
def fixedStrings : List (String × String) :=
  [("(DATETIME('now'))", "now"), ("'uuid_placeholder'", "uuid_placeholder")]

namespace Expression

/-- The strings of an expression. -/
def texts : Expression → List String
  | .verbatim w => (fixedStrings.lookup w).toList
  | .quoted t => [t]

def parts : Expression → List Part
  | .verbatim w => (scan w).getD []
  | .quoted t => [.quoted .string t]

/-- The expression without its text, unless it is one of the dialect. -/
def blank : Expression → Expression
  | .verbatim w => .verbatim w
  | .quoted _ => .quoted ""

/-- An expression that is no string is read to its end, and has no name in it, and no string but
the one it is known to have. -/
def IsSettled : Expression → Prop
  | .verbatim w => ∃ ps, scan w = some ps ∧ contents .name ps = [] ∧
      contents .string ps = (fixedStrings.lookup w).toList
  | .quoted _ => True

end Expression

/-- An expression with a text in front, or another text where there is none, part by part. -/
def defaultParts (front absent : String) : Option Expression → List Part
  | some e => signs front ++ e.parts
  | none => signs absent

namespace ColumnDefinition

/-- What stands in a declaration without quotes, its default apart. -/
def words (c : ColumnDefinition) : List String := [c.type, c.identity]

def parts (c : ColumnDefinition) : List Part :=
  .quoted .name c.name ::
    (signs (" " ++ c.type ++ (if c.isKey then " PRIMARY KEY" else "") ++ c.identity ++
        (if c.isUnique then " UNIQUE" else "")) ++
      (defaultParts " DEFAULT " "" c.default ++ signs (if c.isNotNull then " NOT NULL" else "")))

def blank (c : ColumnDefinition) : ColumnDefinition :=
  { c with name := "", default := c.default.map Expression.blank }

end ColumnDefinition

/-- Names with commas between them, part by part. -/
def nameParts (names : List String) : List Part :=
  (signs ", ").intercalate (names.map fun name => [.quoted .name name])

namespace TableElement

/-- The names in a part of a table's declaration, in their order. -/
def names : TableElement → List String
  | .column c => [c.name]
  | .unique columns => columns
  | .foreignKey key table target _ => [key, table, target]

def expressions : TableElement → List Expression
  | .column c => c.default.toList
  | .unique _ => []
  | .foreignKey _ _ _ _ => []

def words : TableElement → List String
  | .column c => c.words
  | .unique _ => []
  | .foreignKey _ _ _ _ => []

def parts : TableElement → List Part
  | .column c => c.parts
  | .unique columns => signs "UNIQUE (" ++ (nameParts columns ++ signs ")")
  | .foreignKey key table target cascades =>
    signs "FOREIGN KEY (" ++ .quoted .name key :: (signs ") REFERENCES " ++
      .quoted .name table :: (signs "(" ++
        .quoted .name target :: signs (")" ++ if cascades then " ON DELETE CASCADE" else "")))

def blank : TableElement → TableElement
  | .column c => .column c.blank
  | .unique columns => .unique (columns.map fun _ => "")
  | .foreignKey _ _ _ cascades => .foreignKey "" "" "" cascades

end TableElement

namespace Statement

/-- The names in a statement, in their order. -/
def names : Statement → List String
  | .createTable table elements => table :: elements.flatMap TableElement.names
  | .dropTable table => [table]
  | .addColumn table c => [table, c.name]
  | .dropColumn table column => [table, column]
  | .modifyColumn table c => [table, c.name]
  | .setNotNull table column _ => [table, column]
  | .setDefault table column _ => [table, column]
  | .setType table column _ converts => table :: column :: if converts then [column] else []
  | .addUnique table column => [table, column]
  | .createUniqueIndex index table column => [index, table, column]
  | .warning _ => []

/-- The expressions in a statement, in their order. -/
def expressions : Statement → List Expression
  | .createTable _ elements => elements.flatMap TableElement.expressions
  | .addColumn _ c => c.default.toList
  | .modifyColumn _ c => c.default.toList
  | .setDefault _ _ default => default.toList
  | _ => []

/-- The strings in a statement, in their order. -/
def texts (st : Statement) : List String := st.expressions.flatMap Expression.texts

/-- What stands in a statement without quotes, its expressions apart. -/
def words : Statement → List String
  | .createTable _ elements => elements.flatMap TableElement.words
  | .addColumn _ c => c.words
  | .modifyColumn _ c => c.words
  | .setType _ _ type _ => [type]
  | _ => []

/-- The front of a statement that alters a table, part by part. -/
def alterParts (table change : String) (rest : List Part) : List Part :=
  signs "ALTER TABLE " ++ .quoted .name table :: (signs (" " ++ change) ++ rest)

/-- The front of a statement that alters a column, part by part. -/
def alterColumnParts (table column : String) (rest : List Part) : List Part :=
  alterParts table "ALTER COLUMN " (.quoted .name column :: (signs " " ++ rest))

/-- The parts of a statement. -/
def parts : Statement → List Part
  | .createTable table elements =>
    signs "CREATE TABLE " ++ .quoted .name table :: (signs " (\n  " ++
      ((signs ",\n  ").intercalate (elements.map TableElement.parts) ++ signs "\n);"))
  | .dropTable table => signs "DROP TABLE " ++ .quoted .name table :: signs ";"
  | .addColumn table c => alterParts table "ADD COLUMN " (c.parts ++ signs ";")
  | .dropColumn table column =>
    alterParts table "DROP COLUMN " (.quoted .name column :: signs ";")
  | .modifyColumn table c => alterParts table "MODIFY COLUMN " (c.parts ++ signs ";")
  | .setNotNull table column notNull =>
    alterColumnParts table column
      (signs ((if notNull then "SET NOT NULL" else "DROP NOT NULL") ++ ";"))
  | .setDefault table column default =>
    alterColumnParts table column
      (defaultParts "SET DEFAULT " "DROP DEFAULT" default ++ signs ";")
  | .setType table column type converts =>
    alterColumnParts table column
      (signs ("TYPE " ++ type) ++
        ((if converts then signs " USING " ++ .quoted .name column :: signs ("::" ++ type)
          else []) ++ signs ";"))
  | .addUnique table column => alterParts table "ADD UNIQUE (" (.quoted .name column :: signs ");")
  | .createUniqueIndex index table column =>
    signs "CREATE UNIQUE INDEX " ++ .quoted .name index :: (signs " ON " ++
      .quoted .name table :: (signs " (" ++ .quoted .name column :: signs ");"))
  | .warning _ => []

/-- The statement without its names and texts. -/
def blank : Statement → Statement
  | .createTable _ elements => .createTable "" (elements.map TableElement.blank)
  | .dropTable _ => .dropTable ""
  | .addColumn _ c => .addColumn "" c.blank
  | .dropColumn _ _ => .dropColumn "" ""
  | .modifyColumn _ c => .modifyColumn "" c.blank
  | .setNotNull _ _ notNull => .setNotNull "" "" notNull
  | .setDefault _ _ default => .setDefault "" "" (default.map Expression.blank)
  | .setType _ _ type converts => .setType "" "" type converts
  | .addUnique _ _ => .addUnique "" ""
  | .createUniqueIndex _ _ _ => .createUniqueIndex "" "" ""
  | .warning w => .warning w

/-- A statement whose words are types without quotes and whose expressions are settled. -/
structure IsSettled (st : Statement) : Prop where
  bare : ∀ w ∈ st.words, IsBare w
  settled : ∀ e ∈ st.expressions, e.IsSettled

end Statement

/-! ### Expressions -/

namespace Expression

variable {e : Expression}

/-- A settled expression is written by its parts. -/
theorem IsSettled.written (h : e.IsSettled) : e.parts.flatMap Part.written = e.render.toList := by
  cases e with
  | verbatim w =>
      obtain ⟨ps, hps, -, -⟩ := h
      rw [parts, hps, Option.getD_some, render, (scan_eq_some_iff.mp hps).2]
  | quoted t => simp [parts, Part.written, render, Quote.sign]

/-- The parts of a settled expression are those that a scan finds. -/
theorem IsSettled.spaced (h : e.IsSettled) : Spaced e.parts := by
  cases e with
  | verbatim w =>
      obtain ⟨ps, hps, -, -⟩ := h
      rw [parts, hps, Option.getD_some]
      exact (scan_eq_some_iff.mp hps).1
  | quoted t => exact spaced_quoted .string t

/-- No name stands in a settled expression. -/
theorem IsSettled.contents_name (h : e.IsSettled) : contents .name e.parts = [] := by
  cases e with
  | verbatim w =>
      obtain ⟨ps, hps, hname, -⟩ := h
      rw [parts, hps, Option.getD_some, hname]
  | quoted t => rfl

/-- The strings in the parts of a settled expression are its own. -/
theorem IsSettled.contents_string (h : e.IsSettled) : contents .string e.parts = e.texts := by
  cases e with
  | verbatim w =>
      obtain ⟨ps, hps, -, hstring⟩ := h
      rw [parts, hps, Option.getD_some, hstring, texts]
  | quoted t => rfl

theorem map_blank_parts (e : Expression) :
    e.blank.parts.map Part.blank = e.parts.map Part.blank := by
  cases e <;> rfl

theorem isSettled_blank_iff : e.blank.IsSettled ↔ e.IsSettled := by cases e <;> rfl

end Expression

section

variable {front absent : String} {default : Option Expression}

/-- An expression with a text in front has the parts that a scan finds. -/
theorem spaced_defaultParts (hfront : IsBare front) (habsent : IsBare absent)
    (h : ∀ e ∈ default.toList, e.IsSettled) : Spaced (defaultParts front absent default) := by
  cases default with
  | none => exact spaced_signs_iff.mpr habsent
  | some e => exact spaced_signs_append_iff.mpr ⟨hfront, (h e (by simp)).spaced⟩

/-- No name stands in a default. -/
theorem contents_name_defaultParts (h : ∀ e ∈ default.toList, e.IsSettled) :
    contents .name (defaultParts front absent default) = [] := by
  cases default with
  | none => exact contents_signs .name absent
  | some e => simp [defaultParts, (h e (by simp)).contents_name]

/-- The strings in a default are those of its expression. -/
theorem contents_string_defaultParts (h : ∀ e ∈ default.toList, e.IsSettled) :
    contents .string (defaultParts front absent default) =
      default.toList.flatMap Expression.texts := by
  cases default with
  | none => exact contents_signs .string absent
  | some e => simp [defaultParts, (h e (by simp)).contents_string]

/-- Without its text, a default has the same parts but for the text. -/
theorem map_blank_defaultParts :
    (defaultParts front absent (default.map Expression.blank)).map Part.blank =
      (defaultParts front absent default).map Part.blank := by
  cases default with
  | none => rfl
  | some e => simp [defaultParts, e.map_blank_parts]

end

/-! ### Declarations -/

/-- Where names are quoted, and not by the quote of MySQL, a name is written as a part. -/
theorem Style.toList_name {s : Style} (hquotes : s.quotes = true) (hdialect : s.dialect ≠ .mysql)
    (name : String) : (s.name name).toList = (Part.quoted .name name).written := by
  have hsign : s.dialect.quoteChar = Quote.sign .name := by
    cases h : s.dialect <;> first | rfl | exact absurd h hdialect
  rw [Style.name, if_pos hquotes, Dialect.quote, hsign]
  rfl

section

variable {s : Style} (hquotes : s.quotes = true) (hdialect : s.dialect ≠ .mysql)

namespace ColumnDefinition

variable {c : ColumnDefinition} (h : ∀ e ∈ c.default.toList, e.IsSettled)

include hquotes hdialect h in

/-- A declaration is written by its parts. -/
theorem toList_render : (c.render s).toList = c.parts.flatMap Part.written := by
  cases hdefault : c.default with
  | none =>
      simp [render, parts, defaultParts, hdefault, Style.toList_name hquotes hdialect]
  | some e =>
      have he := (h e (by simp [hdefault])).written
      simp [render, parts, defaultParts, hdefault, Style.toList_name hquotes hdialect, he]

include h in

/-- A declaration has the parts that a scan finds, if its words are without quotes. -/
theorem spaced_parts (hbare : ∀ w ∈ c.words, IsBare w) : Spaced c.parts := by
  have htype : IsBare c.type := hbare c.type (by simp [words])
  have hidentity : IsBare c.identity := hbare c.identity (by simp [words])
  have hclauses : IsBare (" " ++ c.type ++ (if c.isKey then " PRIMARY KEY" else "") ++ c.identity ++
      (if c.isUnique then " UNIQUE" else "")) := by
    simp only [isBare_append_iff, htype, hidentity, and_true]
    refine ⟨⟨by decide, ?_⟩, ?_⟩ <;> split <;> decide
  rw [parts, spaced_quoted_between_iff (by simp), spaced_append_signs_iff]
  refine ⟨hclauses, spaced_defaultParts (by decide) (by decide) h, ?_⟩
  split <;> decide

include h in

theorem contents_name_parts : contents .name c.parts = [c.name] := by
  simp [parts, contents_name_defaultParts h]

include h in

theorem contents_string_parts :
    contents .string c.parts = c.default.toList.flatMap Expression.texts := by
  simp [parts, contents_string_defaultParts h]

/-- Without name and text, a declaration has the same parts but for those. -/
theorem map_blank_parts (c : ColumnDefinition) :
    c.blank.parts.map Part.blank = c.parts.map Part.blank := by
  simp only [parts, blank, List.map_cons, List.map_append, map_blank_signs, map_blank_defaultParts]
  rfl

end ColumnDefinition

/-! ### Names with commas between them -/

include hquotes hdialect in

/-- Names with commas between them are written by their parts. -/
theorem Style.toList_names (names : List String) :
    (s.names names).toList = (nameParts names).flatMap Part.written := by
  rw [Style.names, nameParts]
  exact toList_intercalate_map fun name _ => by simp [toList_name hquotes hdialect]

end

theorem spaced_nameParts (names : List String) : Spaced (nameParts names) := by
  refine spaced_intercalate (by decide) (by decide) fun ps hps => ?_
  obtain ⟨name, -, rfl⟩ := List.mem_map.mp hps
  exact spaced_quoted .name name

@[simp] theorem contents_name_nameParts (names : List String) :
    contents .name (nameParts names) = names := by
  simp [nameParts, contents_intercalate]

@[simp] theorem contents_string_nameParts (names : List String) :
    contents .string (nameParts names) = [] := by
  simp [nameParts, contents_intercalate]

/-- Other names make the same parts but for the names. -/
theorem map_blank_nameParts (names : List String) :
    (nameParts (names.map fun _ => "")).map Part.blank = (nameParts names).map Part.blank := by
  rw [nameParts, nameParts, map_blank_intercalate, map_blank_intercalate, List.map_map]
  rfl

namespace TableElement

section

variable {s : Style} {x : TableElement} (h : ∀ e ∈ x.expressions, e.IsSettled)

include h in

/-- A part of a table is written by its parts, where names are quoted with double quotes. -/
theorem toList_render (hquotes : s.quotes = true) (hdialect : s.dialect ≠ .mysql) :
    (x.render s).toList = x.parts.flatMap Part.written := by
  have hname := Style.toList_name hquotes hdialect
  have hnames := Style.toList_names hquotes hdialect
  unfold render parts
  cases x with
  | column c => exact ColumnDefinition.toList_render hquotes hdialect h
  | unique columns => simp [hnames]
  | foreignKey key table target cascades => simp [hname]

include h in

/-- A part of a table has the parts that a scan finds. -/
theorem spaced_parts (hbare : ∀ w ∈ x.words, IsBare w) : Spaced x.parts := by
  cases x with
  | column c => exact ColumnDefinition.spaced_parts h hbare
  | unique columns =>
      rw [parts, spaced_signs_append_iff, spaced_append_signs_iff]
      exact ⟨by decide, spaced_nameParts columns, by decide⟩
  | foreignKey key table target cascades =>
      rw [parts, spaced_signs_append_iff, spaced_quoted_between_iff (by decide),
        spaced_quoted_between_iff (by decide), spaced_quoted_signs_iff]
      refine ⟨by decide, by decide, by decide, ?_⟩
      cases cascades <;> decide

include h in

/-- The names in a part of a table are found in their order. -/
theorem contents_name_parts : contents .name x.parts = x.names := by
  cases x with
  | column c => exact ColumnDefinition.contents_name_parts h
  | unique columns => simp [parts, names]
  | foreignKey key table target cascades => simp [parts, names]

include h in

/-- The strings in a part of a table are those of its expressions. -/
theorem contents_string_parts :
    contents .string x.parts = x.expressions.flatMap Expression.texts := by
  cases x with
  | column c => exact ColumnDefinition.contents_string_parts h
  | unique columns => simp [parts, expressions]
  | foreignKey key table target cascades => simp [parts, expressions]

end

/-- Without names and texts, a part of a table has the same parts but for those. -/
theorem map_blank_parts (x : TableElement) :
    x.blank.parts.map Part.blank = x.parts.map Part.blank := by
  cases x with
  | column c => exact c.map_blank_parts
  | unique columns =>
      rw [blank, parts, parts, List.map_append, List.map_append, List.map_append, List.map_append,
        map_blank_nameParts]
  | foreignKey key table target cascades => simp [parts, blank, Part.blank]

@[simp] theorem words_blank (x : TableElement) : x.blank.words = x.words := by cases x <;> rfl

@[simp] theorem expressions_blank (x : TableElement) :
    x.blank.expressions = x.expressions.map Expression.blank := by
  cases x with
  | column c => simp [expressions, blank, ColumnDefinition.blank, Option.toList_map]
  | _ => rfl

end TableElement

/-! ### Statements -/

namespace Statement

section

variable {s : Style} {st : Statement} (h : st.IsSettled)

/-- Every part of a settled table is settled. -/
theorem IsSettled.element {table : String} {elements : List TableElement} {x : TableElement}
    (h : (createTable table elements).IsSettled) (hx : x ∈ elements) :
    (∀ w ∈ x.words, IsBare w) ∧ ∀ e ∈ x.expressions, e.IsSettled :=
  ⟨fun w hw => h.bare w (List.mem_flatMap.mpr ⟨x, hx, hw⟩),
    fun e he => h.settled e (List.mem_flatMap.mpr ⟨x, hx, he⟩)⟩

include h in
/-- **A statement is written from its parts.** -/
theorem toList_render (hquotes : s.quotes = true) (hdialect : s.dialect ≠ .mysql)
    (hst : st.isWarning = false) : (st.render s).toList = st.parts.flatMap Part.written := by
  have hname := Style.toList_name hquotes hdialect
  unfold render parts
  cases st with
  | createTable table elements =>
      have helements : (",\n  ".intercalate (elements.map (·.render s))).toList = _ :=
        toList_intercalate_map fun x hx =>
          TableElement.toList_render (h.element hx).2 hquotes hdialect
      simp [hname, helements]
  | addColumn table c =>
      have hc := ColumnDefinition.toList_render hquotes hdialect h.settled
      simp [Style.alter, alterParts, hname, hc]
  | modifyColumn table c =>
      have hc := ColumnDefinition.toList_render hquotes hdialect h.settled
      simp [Style.alter, alterParts, hname, hc]
  | setDefault table column default =>
      cases default with
      | none =>
          simp [Style.alterColumn, Style.alter, alterColumnParts, alterParts, defaultParts, hname]
      | some e =>
          have he := (h.settled e (List.mem_singleton_self e)).written
          simp [Style.alterColumn, Style.alter, alterColumnParts, alterParts, defaultParts, hname,
            he]
  | setType table column type converts =>
      cases converts <;>
        simp [Style.alterColumn, Style.alter, alterColumnParts, alterParts, hname]
  | warning w => cases hst
  | _ => simp [Style.alterColumn, Style.alter, alterColumnParts, alterParts, hname]

/-- The front of a statement that alters a table has the parts that a scan finds. -/
theorem spaced_alterParts {table change : String} {rest : List Part} (hchange : IsBare change)
    (hrest : Spaced rest) : Spaced (alterParts table change rest) := by
  rw [alterParts, spaced_signs_append_iff, spaced_quoted_between_iff (by simp), isBare_append_iff]
  exact ⟨by decide, ⟨by decide, hchange⟩, hrest⟩

theorem spaced_alterColumnParts {table column : String} {rest : List Part} (hrest : Spaced rest) :
    Spaced (alterColumnParts table column rest) :=
  spaced_alterParts (by decide)
    ((spaced_quoted_between_iff (by decide)).mpr ⟨by decide, hrest⟩)

include h in
/-- **The parts of a statement can be told apart.** -/
theorem spaced_parts : Spaced st.parts := by
  cases st with
  | createTable table elements =>
      rw [parts, spaced_signs_append_iff, spaced_quoted_between_iff (by decide),
        spaced_append_signs_iff]
      refine ⟨by decide, by decide, ?_, by decide⟩
      refine spaced_intercalate (by decide) (by decide) fun ps hps => ?_
      obtain ⟨x, hx, rfl⟩ := List.mem_map.mp hps
      exact TableElement.spaced_parts (h.element hx).2 (h.element hx).1
  | addColumn table c =>
      refine spaced_alterParts (by decide) (spaced_append_signs_iff.mpr ⟨?_, by decide⟩)
      exact ColumnDefinition.spaced_parts h.settled h.bare
  | modifyColumn table c =>
      refine spaced_alterParts (by decide) (spaced_append_signs_iff.mpr ⟨?_, by decide⟩)
      exact ColumnDefinition.spaced_parts h.settled h.bare
  | setNotNull table column notNull =>
      refine spaced_alterColumnParts (spaced_signs_iff.mpr ?_)
      cases notNull <;> decide
  | setDefault table column default =>
      refine spaced_alterColumnParts (spaced_append_signs_iff.mpr ⟨?_, by decide⟩)
      exact spaced_defaultParts (by decide) (by decide) h.settled
  | setType table column type converts =>
      have htype : IsBare type := h.bare type (List.mem_singleton_self type)
      refine spaced_alterColumnParts (spaced_signs_append_iff.mpr ⟨?_, ?_⟩)
      · exact isBare_append_iff.mpr ⟨by decide, htype⟩
      · rw [spaced_append_signs_iff]
        refine ⟨?_, by decide⟩
        cases converts with
        | false => exact spaced_nil
        | true =>
            refine spaced_signs_append_iff.mpr ⟨by decide, spaced_quoted_signs_iff.mpr ?_⟩
            exact isBare_append_iff.mpr ⟨by decide, htype⟩
  | dropTable table =>
      exact spaced_signs_append_iff.mpr ⟨by decide, spaced_quoted_signs_iff.mpr (by decide)⟩
  | dropColumn table column =>
      exact spaced_alterParts (by decide) (spaced_quoted_signs_iff.mpr (by decide))
  | addUnique table column =>
      exact spaced_alterParts (by decide) (spaced_quoted_signs_iff.mpr (by decide))
  | createUniqueIndex index table column =>
      rw [parts, spaced_signs_append_iff, spaced_quoted_between_iff (by decide),
        spaced_quoted_between_iff (by decide), spaced_quoted_signs_iff]
      exact ⟨by decide, by decide, by decide, by decide⟩
  | warning w => exact spaced_nil

include h in
/-- **What a scan finds in a statement.** -/
theorem scan_render (hquotes : s.quotes = true) (hdialect : s.dialect ≠ .mysql)
    (hst : st.isWarning = false) : scan (st.render s) = some st.parts :=
  scan_eq_some_iff.mpr ⟨spaced_parts h, (toList_render h hquotes hdialect hst).symm⟩

include h in

/-- The names in a statement are found in their order. -/
theorem contents_name_parts : contents .name st.parts = st.names := by
  cases st with
  | createTable table elements =>
      have helements : (elements.flatMap fun x => contents .name x.parts) =
          elements.flatMap TableElement.names :=
        List.flatMap_congr fun x hx => TableElement.contents_name_parts (h.element hx).2
      simp [parts, names, contents_intercalate, helements]
  | addColumn table c =>
      simp [parts, names, alterParts, ColumnDefinition.contents_name_parts h.settled]
  | modifyColumn table c =>
      simp [parts, names, alterParts, ColumnDefinition.contents_name_parts h.settled]
  | setDefault table column default =>
      simp [parts, names, alterColumnParts, alterParts, contents_name_defaultParts h.settled]
  | setType table column type converts =>
      cases converts <;> simp [parts, names, alterColumnParts, alterParts]
  | _ => simp [parts, names, alterColumnParts, alterParts]

include h in

/-- The strings in a statement are found in their order. -/
theorem contents_string_parts : contents .string st.parts = st.texts := by
  unfold texts
  cases st with
  | createTable table elements =>
      have helements : (elements.flatMap fun x => contents .string x.parts) =
          elements.flatMap fun x => x.expressions.flatMap Expression.texts :=
        List.flatMap_congr fun x hx => TableElement.contents_string_parts (h.element hx).2
      simp [parts, expressions, contents_intercalate, helements, List.flatMap_assoc]
  | addColumn table c =>
      simp [parts, expressions, alterParts, ColumnDefinition.contents_string_parts h.settled]
  | modifyColumn table c =>
      simp [parts, expressions, alterParts, ColumnDefinition.contents_string_parts h.settled]
  | setDefault table column default =>
      simp [parts, expressions, alterColumnParts, alterParts,
        contents_string_defaultParts h.settled]
  | setType table column type converts =>
      cases converts <;> simp [parts, expressions, alterColumnParts, alterParts]
  | _ => simp [parts, expressions, alterColumnParts, alterParts]

end

/-! ### Statements without names and texts -/

/-- Without names and texts, a statement has the same parts but for those. -/
theorem map_blank_parts (st : Statement) :
    st.blank.parts.map Part.blank = st.parts.map Part.blank := by
  cases st with
  | createTable table elements =>
      simp [parts, blank, map_blank_intercalate, TableElement.map_blank_parts, Part.blank]
  | addColumn table c =>
      simp [parts, blank, alterParts, ColumnDefinition.map_blank_parts, Part.blank]
  | modifyColumn table c =>
      simp [parts, blank, alterParts, ColumnDefinition.map_blank_parts, Part.blank]
  | setDefault table column default =>
      simp [parts, blank, alterColumnParts, alterParts, map_blank_defaultParts, Part.blank]
  | setType table column type converts =>
      cases converts <;> simp [parts, blank, alterColumnParts, alterParts, Part.blank]
  | _ => simp [parts, blank, alterColumnParts, alterParts, Part.blank]

/-- Names and texts are no words of a statement. -/
theorem words_blank (st : Statement) : st.blank.words = st.words := by
  cases st with
  | createTable table elements => simp [words, blank, List.flatMap_map]
  | _ => rfl

theorem expressions_blank (st : Statement) :
    st.blank.expressions = st.expressions.map Expression.blank := by
  cases st with
  | createTable table elements => simp [expressions, blank, List.flatMap_map, List.map_flatMap]
  | addColumn table c => simp [expressions, blank, ColumnDefinition.blank, Option.toList_map]
  | modifyColumn table c => simp [expressions, blank, ColumnDefinition.blank, Option.toList_map]
  | setDefault table column default => simp [expressions, blank, Option.toList_map]
  | _ => rfl

theorem isWarning_blank (st : Statement) : st.blank.isWarning = st.isWarning := by
  cases st <;> rfl

/-- Whether a statement is settled does not depend on its names and texts. -/
theorem isSettled_blank_iff {st : Statement} : st.blank.IsSettled ↔ st.IsSettled := by
  have hexpressions : (∀ e ∈ st.blank.expressions, e.IsSettled) ↔
      ∀ e ∈ st.expressions, e.IsSettled := by
    simp [expressions_blank, Expression.isSettled_blank_iff]
  constructor
  · exact fun h => ⟨words_blank st ▸ h.bare, hexpressions.mp h.settled⟩
  · exact fun h => ⟨(words_blank st).symm ▸ h.bare, hexpressions.mpr h.settled⟩

section

variable {st other : Statement} (h : other.blank = st.blank)

include h in
/-- **Names and strings are nothing but names and strings.**  Whatever other ones a statement is
given, they stand at the same places, and the same signs around them. -/
theorem map_blank_parts_eq : other.parts.map Part.blank = st.parts.map Part.blank := by
  rw [← map_blank_parts other, h, map_blank_parts]

include h in
theorem isWarning_eq_of_blank_eq : other.isWarning = st.isWarning := by
  rw [← isWarning_blank other, h, isWarning_blank]

include h in

theorem IsSettled.of_blank_eq (hst : st.IsSettled) : other.IsSettled := by
  rwa [← isSettled_blank_iff, h, isSettled_blank_iff]

end

end Statement

end Schemata
