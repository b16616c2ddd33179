import Schemata.Statement.Rendering
import Schemata.Text.Blank

/-!
# Scripts

A script is a list of statements as text.  Those that begin with the comment sign, blanks aside,
are remarks; the others are to be executed, in their order.
-/

namespace Schemata

/-- Whether a statement is only a remark. -/
def isRemark (statement : String) : Bool :=
  ['-', '-'].isPrefixOf (Text.stripLeft statement.toList)

/-- The text of a script without statements. -/
def noChanges : String := "-- No changes detected."

/-- Statements as text. -/
structure Script where
  statements : List String
  deriving DecidableEq, Repr

namespace Script

/-- The script of statements in a style. -/
def ofStatements (s : Style) (statements : List Statement) : Script :=
  ⟨statements.map (·.render s)⟩

def isEmpty (s : Script) : Bool := s.statements.isEmpty

@[simp] theorem isEmpty_ofStatements (s : Style) (statements : List Statement) :
    (ofStatements s statements).isEmpty = statements.isEmpty := List.isEmpty_map

/-- The statements to be executed. -/
def executable (s : Script) : List String := s.statements.filter fun t => !isRemark t

/-- The remarks. -/
def warnings (s : Script) : List String := s.statements.filter isRemark

/-- The script as one text: a transaction, or the remark that nothing changes. -/
def toSql (s : Script) : String :=
  if s.isEmpty then noChanges else "BEGIN;\n" ++ "\n".intercalate s.statements ++ "\nCOMMIT;"

end Script

end Schemata
