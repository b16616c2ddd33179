import Schemata.Text.Quoted
import Schemata.Text.Utf8

/-!
# Files

What a program can learn about a file: its bytes, or why there are none.  Text is read as UTF-8
with the three line ends made one.
-/

namespace Schemata

/-- Why a file cannot be read or written. -/
inductive FileProblem where
  | missing
  | isDirectory
  | notDirectory
  | exists
  | nameTooLong
  | zeroCharacter
  deriving DecidableEq, Repr

/-- A problem with the file at a path. -/
structure FileFault where
  problem : FileProblem
  path : String
  deriving DecidableEq, Repr

/-- Whether a path can name no file at all, so that the system is not asked for one. -/
def FileProblem.isUnasked (p : FileProblem) : Bool := p = .zeroCharacter

def FileFault.message (f : FileFault) : String :=
  let told (cause : String) := s!"{cause}: {Text.quoted f.path}"
  match f.problem with
  | .missing => told "[Errno 2] No such file or directory"
  | .exists => told "[Errno 17] File exists"
  | .notDirectory => told "[Errno 20] Not a directory"
  | .isDirectory => told "[Errno 21] Is a directory"
  | .nameTooLong => told "[Errno 36] File name too long"
  | .zeroCharacter => "embedded null byte"

/-- The text of a file with these bytes. -/
def textOfBytes (bytes : List UInt8) : Except Text.ByteFault String :=
  (Text.decode bytes).map fun cs => String.ofList (Text.unifyNewlines cs)

end Schemata
