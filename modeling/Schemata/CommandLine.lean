import Schemata.Command.Report
import Schemata.Command.Tasks

/-!
# Command lines

The whole program as a command: from its arguments to the status that it exits with.  That is zero
for success, one for an error that was reported, and two for arguments that cannot be taken; an
error that is not reported is left to the surroundings.
-/

namespace Schemata

/-- What the program exits with. -/
inductive ExitStatus where
  | success
  | reported
  | misuse
  deriving DecidableEq, Repr

def ExitStatus.code : ExitStatus → UInt8
  | .success => 0
  | .reported => 1
  | .misuse => 2

/-- Does what is asked for, and reports what can be reported. -/
def Invocation.respond (i : Invocation) : Command ExitStatus := do
  Command.note .debug s!"Running command: {i.task.name}"
  let attempt : Command ExitStatus := do
    i.perform
    pure .success
  attempt.handle fun error =>
    if error.isReported then do
      error.report
      pure .reported
    else .fail error

/-- How the program is used. -/
def usage : String :=
  "Schema compiler and migration toolkit\n\n" ++
  "usage: dbschema [--env-prefix FRONT] [--config FILE] [--verbose] TASK ...\n\n" ++
  "  check       validate the schema [--schema FILE] [--strict] [--show]\n" ++
  "  generate    print the script of a fresh database\n" ++
  "              [--schema FILE] [--dialect NAME] [--output FILE] [--quote]\n" ++
  "  types       write the type declarations [--schema FILE] [--output FILE]\n" ++
  "  introspect  show the schema that is deployed\n" ++
  "  migrate     bring the database in line with the schema\n" ++
  "              [--schema FILE] [--dry-run] [--no-types]\n"

/-- The program. -/
def respond (arguments : List String) : Command ExitStatus :=
  match Invocation.ofArguments arguments with
  | .ok i => i.respond
  | .error .misuse => pure .misuse
  | .error .help => do
    Command.request (.print usage)
    pure .success

end Schemata
