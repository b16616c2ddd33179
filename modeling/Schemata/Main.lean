import Schemata.CommandLine

/-!
# The program

Replies to the requests of a command from the system that the program runs on.  Nothing is decided
here: what is read, written and printed is what the command asks for.

No driver of a database is linked in, so every server refuses.
-/

namespace Schemata.Machine

/-- The server without a driver. -/
def noServer : Server :=
  let fault : ServerFault := ⟨.driver, "no driver is linked in"⟩
  { accepts := fun _ => .error fault
    probes := fun _ => .error fault
    tables := fun _ => .error fault
    columns := fun _ => .error fault
    constraints := fun _ => .error fault }

/-- The problem with a file, if the system tells of one that is known. -/
def fileProblem? : IO.Error → Option FileProblem
  | .noFileOrDirectory .. => some .missing
  | .alreadyExists .. => some .exists
  | .inappropriateType _ code _ => some (if code = 21 then .isDirectory else .notDirectory)
  | _ => none

/-- The outcome of work on the file at a path. -/
def attempt {α : Type} (path : Path) (work : IO α) : IO (Except FileFault α) := do
  try
    let a ← work
    pure (.ok a)
  catch error =>
    match fileProblem? error with
    | some problem => pure (.error ⟨problem, path.text⟩)
    | none => throw error

/-- Tells an entry of the journal, unless it is of no interest. -/
def tell (isVerbose : Bool) (e : Entry) : IO Unit := do
  let label :=
    match e.level with
    | .debug => "DEBUG"
    | .info => "INFO"
    | .warning => "WARNING"
    | .error => "ERROR"
  if isVerbose || e.level ≠ .debug then IO.eprintln s!"{label} {e.text}"

/-- The outcome of a session. -/
def session {ε α : Type} (isVerbose : Bool) (work : Session ε α) : IO (Except ε α) := do
  let r := work.run noServer []
  r.entries.forM (tell isVerbose)
  pure r.outcome

/-- The reply to a request. -/
def reply (isVerbose : Bool) : (r : Request) → IO r.Reply
  | .read p => attempt p do
    let bytes ← IO.FS.readBinFile p.text
    pure bytes.toList
  | .makeDirectory p => attempt p (IO.FS.createDirAll p.text)
  | .write p text => attempt p (IO.FS.writeFile p.text text)
  | .lookUp name => do
    let value ← IO.getEnv name
    pure (value.getD "")
  | .workingDirectory => do
    let directory ← IO.currentDir
    pure (Path.ofString directory.toString)
  | .print text => IO.print text
  | .note e => tell isVerbose e
  | .introspect t timeout => session isVerbose (t.introspector timeout).deployed
  | .migrate desired t options => session isVerbose (Schemata.migrate desired t options)

/-- Does what a command asks for. -/
def perform {α : Type} (isVerbose : Bool) : Command α → IO (Except CommandError α)
  | .done a => pure (.ok a)
  | .fail error => pure (.error error)
  | .ask request next => do
    let r ← reply isVerbose request
    perform isVerbose (next r)

end Schemata.Machine

open Schemata in
def main (arguments : List String) : IO UInt32 := do
  let isVerbose :=
    match Invocation.ofArguments arguments with
    | .ok i => i.isVerbose
    | .error _ => false
  match ← Machine.perform isVerbose (respond arguments) with
  | .ok status =>
    if status = .misuse then IO.eprint usage
    pure status.code.toUInt32
  | .error error =>
    IO.eprintln error.message
    pure 1
