import Schemata.Statement

/-!
# Statements — rendering

The text of statements.  A `Style` is a dialect and whether names are quoted; nothing else of a
statement's text depends on it.  A string in an expression is written between single quotes with
every single quote written twice.

A warning is a comment, and nothing else begins with the comment sign.
-/

namespace Schemata

/-- How statements are written. -/
structure Style where
  dialect : Dialect
  quotes : Bool
  deriving DecidableEq, Repr

/-- A name as it is written. -/
def Style.name (s : Style) (name : String) : String :=
  if s.quotes then s.dialect.quote name else name

/-- An expression as it is written. -/
def Expression.render : Expression → String
  | .verbatim text => text
  | .quoted text => enclosed '\'' text

/-- The declaration of a column as it is written. -/
def ColumnDefinition.render (s : Style) (c : ColumnDefinition) : String :=
  s.name c.name ++ " " ++ c.type ++
    (if c.isKey then " PRIMARY KEY" else "") ++ c.identity ++
    (if c.isUnique then " UNIQUE" else "") ++
    (match c.default with
      | some e => " DEFAULT " ++ e.render
      | none => "") ++
    (if c.isNotNull then " NOT NULL" else "")

/-- Names with commas between them. -/
def Style.names (s : Style) (names : List String) : String :=
  ", ".intercalate (names.map s.name)

/-- A part of a table's declaration as it is written. -/
def TableElement.render (s : Style) : TableElement → String
  | .column c => c.render s
  | .unique columns => "UNIQUE (" ++ s.names columns ++ ")"
  | .foreignKey key table target cascades =>
    "FOREIGN KEY (" ++ s.name key ++ ") REFERENCES " ++ s.name table ++
      "(" ++ s.name target ++ ")" ++ (if cascades then " ON DELETE CASCADE" else "")

def Aspect.name : Aspect → String
  | .nullability => "nullability"
  | .default => "default"
  | .type => "type"

/-- A warning as it is written. -/
def Warning.render : Warning → String
  | .keyMayNotBeNull column =>
    "-- WARNING: Attempt to DROP NOT NULL on primary key column " ++ column ++ " skipped."
  | .autoincrementChange column =>
    "-- WARNING: autoincrement change on column " ++ column ++ " not automated."
  | .uniqueRemoval column =>
    "-- WARNING: UNIQUE constraint removal for " ++ column ++ " not automated. " ++
      "Please drop constraint manually if needed."
  | .unalterable aspects table column =>
    "-- WARNING: SQLite cannot alter " ++ " and ".intercalate (aspects.map Aspect.name) ++
      " of column " ++ table ++ "." ++ column ++ " in place. Rebuild the table manually."

/-- The front of a statement that alters a table. -/
def Style.alter (s : Style) (table : String) : String := "ALTER TABLE " ++ s.name table ++ " "

/-- The front of a statement that alters a column. -/
def Style.alterColumn (s : Style) (table column : String) : String :=
  s.alter table ++ "ALTER COLUMN " ++ s.name column ++ " "

/-- A statement as it is written. -/
def Statement.render (s : Style) : Statement → String
  | .createTable table elements =>
    "CREATE TABLE " ++ s.name table ++ " (\n  " ++
      ",\n  ".intercalate (elements.map (·.render s)) ++ "\n);"
  | .dropTable table => "DROP TABLE " ++ s.name table ++ ";"
  | .addColumn table c => s.alter table ++ "ADD COLUMN " ++ c.render s ++ ";"
  | .dropColumn table column => s.alter table ++ "DROP COLUMN " ++ s.name column ++ ";"
  | .modifyColumn table c => s.alter table ++ "MODIFY COLUMN " ++ c.render s ++ ";"
  | .setNotNull table column notNull =>
    s.alterColumn table column ++ (if notNull then "SET NOT NULL" else "DROP NOT NULL") ++ ";"
  | .setDefault table column default =>
    s.alterColumn table column ++
      (match default with
        | some e => "SET DEFAULT " ++ e.render
        | none => "DROP DEFAULT") ++ ";"
  | .setType table column type converts =>
    s.alterColumn table column ++ "TYPE " ++ type ++
      (if converts then " USING " ++ s.name column ++ "::" ++ type else "") ++ ";"
  | .addUnique table column => s.alter table ++ "ADD UNIQUE (" ++ s.name column ++ ");"
  | .createUniqueIndex index table column =>
    "CREATE UNIQUE INDEX " ++ s.name index ++ " ON " ++ s.name table ++
      " (" ++ s.name column ++ ");"
  | .warning w => w.render

end Schemata
