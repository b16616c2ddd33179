import Schemata.Command

/-!
# Commands — reports

Which errors of a command are told on the screen, and how.  A user can do something about those
that are reported: a schema that is not right, settings that are wrong, a database that cannot be
reached.  The others end the program as they are.
-/

namespace Schemata

/-- Whether an error of a session is reported. -/
def SessionError.isReported : SessionError → Bool
  | .unreachable _ | .untested _ | .unreadable _ => true
  | .server fault => fault.origin = .client
  | .notConnected | .address _ | .numeral _ => false

/-- Whether an error of the settings is reported. -/
def SettingsError.isReported : SettingsError → Bool
  | .missing _ | .malformed _ | .noTable _ | .invalid _ _ => true
  | .unreadable _ | .bytes _ | .numeral _ => false

namespace CommandError

/-- Whether an error is reported. -/
def isReported : CommandError → Bool
  | .settings error => error.isReported
  | .target (.malformed _) => false
  | .target _ => true
  | .source (.rejected _) => true
  | .source _ => false
  | .plan _ => true
  | .session error => error.isReported
  | .migration (.session error) => error.isReported
  | .migration _ => true
  | .file _ => false
  | .markup _ => false

/-- A line that tells what went wrong. -/
def headline (text : String) : Command Unit :=
  Command.printMarkedWhole ("[bold red]x[/bold red] " ++ text)

/-- Tells an error on the screen. -/
def report (error : CommandError) : Command Unit := do
  Command.printLine ""
  match error with
  | .source (.rejected findings) => do
    headline "Schema compilation failed"
    if findings.isEmpty then
      Command.printLine "  No tokens generated. Cannot parse or analyze."
    findings.forM fun d => Command.printLine ("  " ++ d.text)
  | .migration (.failed script cause) => do
    headline "Failed to apply migration"
    Command.printLine "\nScript:"
    Command.printLine script.toSql
    Command.printMarkedWhole ("\n[bold]Error:[/bold] " ++ Markup.escape cause.message)
  | error => headline (Markup.escape error.message)

end CommandError

end Schemata
