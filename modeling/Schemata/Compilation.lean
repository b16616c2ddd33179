import Schemata.Files
import Schemata.Journal
import Schemata.Schema.Naming
import Schemata.Schema.Reading
import Schemata.Token.Lexeme

/-!
# Compilation

From the text of a schema to the schema, with everything found on the way.  The names are looked
at only if every model could be read, so that a broken model is reported once.

A `Compilation` holds all that was found, and `Compilation.accept` is the schema if nothing speaks
against it.  Pieces dropped by the scanner do not make a source
unacceptable; they are entered in the journal as warnings.
-/

namespace Schemata

/-- Why a source gives no schema. -/
inductive SourceError where
  | file (fault : FileFault)
  | bytes (fault : Text.ByteFault)
  | numeral (fault : NumeralFault)
  | rejected (findings : List Diagnostic)
  deriving DecidableEq, Repr

/-- The findings, one a line. -/
def SourceError.summary (findings : List Diagnostic) : String :=
  let lines := "\n".intercalate (findings.map Diagnostic.text)
  if lines.isEmpty then "no tokens produced" else lines

def SourceError.message : SourceError → String
  | .file fault => fault.message
  | .bytes fault => fault.message
  | .numeral fault => fault.message
  | .rejected findings => "Schema compilation failed:\n" ++ SourceError.summary findings

/-- What compiling a source found. -/
structure Compilation where
  schema : Option Schema := none
  lexFaults : List LexFault := []
  syntaxFaults : List SyntaxFault := []
  semanticFaults : List SemanticFault := []
  tokenCount : Nat := 0

namespace Compilation

/-- The findings that make a source unacceptable. -/
def findings (c : Compilation) : List Diagnostic :=
  c.syntaxFaults.map SyntaxFault.diagnostic ++ c.semanticFaults.map SemanticFault.diagnostic

def isOk (c : Compilation) : Bool :=
  c.schema.isSome && 0 < c.tokenCount && c.findings.isEmpty

/-- The schema of an acceptable source. -/
def accept (c : Compilation) : Except SourceError Schema :=
  match c.schema with
  | none => .error (.rejected c.findings)
  | some s => if c.isOk then .ok s else .error (.rejected c.findings)

end Compilation

/-- The schema of a reading without faults. -/
def Parsed.accept (p : Parsed) : Except SourceError Schema :=
  match p.schema with
  | none => .error (.rejected (p.faults.map SyntaxFault.diagnostic))
  | some s =>
    if p.isOk then .ok s else .error (.rejected (p.faults.map SyntaxFault.diagnostic))

/-- The tokens of a source, with a warning for each piece that was dropped. -/
def scanned {ε : Type} (source : String) : Journal ε Scan :=
  let scan := Token.scan source
  ⟨scan.faults.map fun f => ⟨.warning, f.diagnostic.text⟩, .ok scan⟩

/-- Compiles a source. -/
def compile (source : String) (strict : Bool) : Journal SourceError Compilation := do
  let scan ← scanned source
  let parsed ← Journal.ofExcept ((Schema.ofTokens scan.tokens).mapError .numeral)
  let found : Compilation :=
    { schema := parsed.schema
      lexFaults := scan.faults
      syntaxFaults := parsed.faults
      tokenCount := scan.tokens.length }
  match parsed.schema with
  | none => pure found
  | some schema =>
    if parsed.faults.isEmpty then
      pure { found with semanticFaults := schema.violations strict }
    else
      Journal.note .debug s!"Skipping semantic analysis: {parsed.faults.length} syntax errors"
      pure found

/-- The schema of a source whose names are not looked at. -/
def readSchema (source : String) : Journal SourceError Schema := do
  let scan ← scanned source
  let parsed ← Journal.ofExcept ((Schema.ofTokens scan.tokens).mapError .numeral)
  Journal.ofExcept parsed.accept

/-- The text of a source file.  A file that cannot be read is entered as an error and has no
text; for a path that names no file the reading fails. -/
def sourceText (path : String) (file : Except FileFault (List UInt8)) :
    Journal SourceError (Option String) :=
  match file with
  | .error fault =>
    if fault.problem.isUnasked then Journal.fail (.file fault)
    else do
      Journal.note .error s!"Error reading {path}: {fault.message}"
      pure none
  | .ok bytes => Journal.ofExcept (((textOfBytes bytes).map some).mapError .bytes)

/-- Compiles a source file.  One that cannot be read has no tokens. -/
def compileFile (path : String) (file : Except FileFault (List UInt8)) (strict : Bool) :
    Journal SourceError Compilation := do
  match ← sourceText path file with
  | none => pure {}
  | some source => compile source strict

/-- The tokens of a source file; none at all if it cannot be read. -/
def scanFile (path : String) (file : Except FileFault (List UInt8)) :
    Journal SourceError (List Token) := do
  match ← sourceText path file with
  | none => pure []
  | some source => (·.tokens) <$> scanned source

end Schemata
