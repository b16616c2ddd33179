import Schemata.Compilation
import Schemata.Display.Table
import Schemata.Files.Path
import Schemata.Session.Migration
import Schemata.Settings

/-!
# Commands

What a command does, told as the requests that it makes.  A `Request` is one thing that a command
asks of its surroundings: to read a file, to look up a variable, to print a text, to migrate a
database; `Request.Reply` is the type of what it gets back.  A `Command α` is done with a value of
type `α`, or has failed, or makes a request and goes on with the reply.

A command does nothing by itself, so what it does is settled by who answers: a world that is held
in memory, or the system that the program runs on.  Sequencing grafts (`Command.bind`), and it is
lawful.
-/

namespace Schemata

/-- What a command asks for. -/
inductive Request where
  | read (path : Path)
  | makeDirectory (path : Path)
  | write (path : Path) (text : String)
  | lookUp (variableName : String)
  | workingDirectory
  | print (text : String)
  | note (entry : Entry)
  | introspect (target : Target) (timeout : Int)
  | migrate (desired : Schema) (target : Target) (options : MigrationOptions)

/-- What a request is replied to with.  A variable that is not set is empty. -/
abbrev Request.Reply : Request → Type
  | .read _ => Except FileFault (List UInt8)
  | .makeDirectory _ => Except FileFault Unit
  | .write _ _ => Except FileFault Unit
  | .lookUp _ => String
  | .workingDirectory => Path
  | .print _ => Unit
  | .note _ => Unit
  | .introspect _ _ => Except SessionError Schema
  | .migrate _ _ _ => Except MigrationError Migration

/-- Why a command fails. -/
inductive CommandError where
  | settings (error : SettingsError)
  | target (error : TargetError)
  | source (error : SourceError)
  | plan (error : PlanError)
  | session (error : SessionError)
  | migration (error : MigrationError)
  | file (fault : FileFault)
  | markup (fault : Markup.Fault)

def CommandError.message : CommandError → String
  | .settings error => error.message
  | .target error => error.message
  | .source error => error.message
  | .plan error => error.message
  | .session error => error.message
  | .migration error => error.message
  | .file fault => fault.message
  | .markup fault => fault.message

/-- What a command does, and what it is done with. -/
inductive Command (α : Type) where
  | done (a : α)
  | fail (error : CommandError)
  | ask (request : Request) (next : request.Reply → Command α)

namespace Command

variable {α β ε : Type}

/-- First `c`, then, if it did not fail, what `f` makes of its value. -/
protected def bind (c : Command α) (f : α → Command β) : Command β :=
  match c with
  | .done a => f a
  | .fail error => .fail error
  | .ask request next => .ask request fun reply => (next reply).bind f

instance : Monad Command where
  pure := done
  bind := Command.bind

instance : LawfulMonad Command :=
  LawfulMonad.mk' _
    (fun c => by
      show Command.bind c (fun a => done a) = c
      induction c with
      | done a => rfl
      | fail error => rfl
      | ask request next ih => exact congrArg (ask request) (funext ih))
    (fun _ _ => rfl)
    (fun c f g => by
      show Command.bind (Command.bind c f) g = Command.bind c fun a => Command.bind (f a) g
      induction c with
      | done a => rfl
      | fail error => rfl
      | ask request next ih => exact congrArg (ask request) (funext ih))

/-- What `f` makes of the error, if the command fails. -/
def handle (c : Command α) (f : CommandError → Command α) : Command α :=
  match c with
  | .done a => .done a
  | .fail error => f error
  | .ask request next => .ask request fun reply => (next reply).handle f

/-- A request, and its reply. -/
def request (r : Request) : Command r.Reply := .ask r .done

/-- The value of an outcome, or its error. -/
def ofExcept (f : ε → CommandError) : Except ε α → Command α
  | .ok a => .done a
  | .error e => .fail (f e)

/-- One entry of the journal. -/
def note (level : Level) (text : String) : Command Unit := request (.note ⟨level, text⟩)

/-- The entries of a journal, and then its outcome. -/
def ofJournal (f : ε → CommandError) (j : Journal ε α) : Command α := do
  j.entries.forM fun e => request (.note e)
  ofExcept f j.outcome

/-- Prints a text as it is, but for the names of pictographs. -/
def printLine (text : String) : Command Unit :=
  request (.print (Display.whole (String.ofList (Pictograph.drawn text.toList))))

/-- Prints a text with markup in it, as `layOut` lays it out. -/
def printMarkup (layOut : String → String) (text : String) : Command Unit := do
  let plain ← ofExcept .markup (Markup.plain text)
  request (.print (layOut plain))

/-- Prints a text with markup in it, in lines that fit on the screen. -/
def printMarked : String → Command Unit := printMarkup Display.folded

/-- Prints a text with markup in it, in lines of any length. -/
def printMarkedWhole : String → Command Unit := printMarkup Display.whole

/-- Prints a table. -/
def printGrid (g : Display.Grid) : Command Unit := do
  let text ← ofExcept .markup g.render
  request (.print text)

/-- Writes a file. -/
def write (path : Path) (text : String) : Command Unit := do
  let outcome ← request (.write path text)
  ofExcept .file outcome

/-- Makes a directory unless it is there. -/
def makeDirectory (path : Path) : Command Unit := do
  let outcome ← request (.makeDirectory path)
  ofExcept .file outcome

end Command

end Schemata
