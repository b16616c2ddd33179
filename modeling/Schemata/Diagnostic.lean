/-!
# Diagnostics

A finding about a place in the source: what kind of finding, what it says, and where.  Places
are counted from line 1 and column 1 in characters, and only a newline begins a line
(`Position.advance`).  A place may be counted from any other place, so the numbers are integers;
declarations read from a database stand at no place, which is written as line 0, column 0.
-/

namespace Schemata

/-- A place in a text. -/
structure Position where
  line : Int
  column : Int
  deriving DecidableEq, Repr, Inhabited

namespace Position

/-- The first place of a text. -/
def start : Position := ⟨1, 1⟩

/-- The place of what comes from no text. -/
def nowhere : Position := ⟨0, 0⟩

/-- The place after a character. -/
def advance (p : Position) (c : Char) : Position :=
  if c = '\n' then ⟨p.line + 1, 1⟩ else ⟨p.line, p.column + 1⟩

/-- The place after a text. -/
def after (p : Position) (cs : List Char) : Position := cs.foldl advance p

@[simp] theorem after_nil (p : Position) : p.after [] = p := rfl

@[simp] theorem after_cons (p : Position) (c : Char) (cs : List Char) :
    p.after (c :: cs) = (p.advance c).after cs := rfl

theorem after_append (p : Position) (cs ds : List Char) :
    p.after (cs ++ ds) = (p.after cs).after ds := List.foldl_append

/-- The order of places in a text. -/
def Before (p q : Position) : Prop := p.line < q.line ∨ (p.line = q.line ∧ p.column < q.column)

instance (p q : Position) : Decidable (p.Before q) := inferInstanceAs (Decidable (_ ∨ _))

end Position

/-- Which part of the work a finding comes from. -/
inductive DiagnosticKind where
  | lexical
  | grammar
  | semantic
  | general
  deriving DecidableEq, Repr

def DiagnosticKind.label : DiagnosticKind → String
  | .lexical => "Lex Error"
  | .grammar => "Syntax Error"
  | .semantic => "Semantic Error"
  | .general => "Error"

/-- A finding about a place in the source. -/
structure Diagnostic where
  kind : DiagnosticKind
  message : String
  position : Position
  deriving DecidableEq, Repr

/-- The finding on one line. -/
def Diagnostic.text (d : Diagnostic) : String :=
  s!"{d.kind.label} at [{d.position.line}:{d.position.column}]: {d.message}"

/-- The findings with repetitions left out. -/
def Diagnostic.distinct (ds : List Diagnostic) : List Diagnostic := ds.eraseDups

end Schemata
