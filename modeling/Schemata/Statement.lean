import Schemata.Dialect

/-!
# Statements

The statements of a migration as data: what each one creates, changes or drops.  What they look
like is the matter of `Schemata.Statement.Rendering`; here a name is a name, quoted or not.

Some changes are not made but only told of.  They are statements too (`Statement.warning`), so
that a script shows at its place what was left out.
-/

namespace Schemata

/-- The expression of a default: words of the dialect, or a string. -/
inductive Expression where
  | verbatim (text : String)
  | quoted (text : String)
  deriving DecidableEq, Repr

/-- What is declared of a column.  `identity` is what the dialect adds for a column that counts
up. -/
structure ColumnDefinition where
  name : String
  type : String
  isKey : Bool := false
  identity : String := ""
  isUnique : Bool := false
  default : Option Expression := none
  isNotNull : Bool := false
  deriving DecidableEq, Repr

/-- A part of a table's declaration. -/
inductive TableElement where
  | column (definition : ColumnDefinition)
  | unique (columns : List String)
  | foreignKey (column table target : String) (cascades : Bool)
  deriving DecidableEq, Repr

/-- A property of a column that cannot be changed in place. -/
inductive Aspect where
  | nullability
  | default
  | type
  deriving DecidableEq, Repr

/-- A change that is told of and not made. -/
inductive Warning where
  | keyMayNotBeNull (column : String)
  | autoincrementChange (column : String)
  | uniqueRemoval (column : String)
  | unalterable (aspects : List Aspect) (table column : String)
  deriving DecidableEq, Repr

/-- A step of a migration. -/
inductive Statement where
  | createTable (table : String) (elements : List TableElement)
  | dropTable (table : String)
  | addColumn (table : String) (definition : ColumnDefinition)
  | dropColumn (table column : String)
  | modifyColumn (table : String) (definition : ColumnDefinition)
  | setNotNull (table column : String) (notNull : Bool)
  | setDefault (table column : String) (default : Option Expression)
  | setType (table column type : String) (converts : Bool)
  | addUnique (table column : String)
  | createUniqueIndex (index table column : String)
  | warning (warning : Warning)
  deriving DecidableEq, Repr

/-- A statement that is only a remark. -/
def Statement.isWarning : Statement → Bool
  | .warning _ => true
  | _ => false

end Schemata
