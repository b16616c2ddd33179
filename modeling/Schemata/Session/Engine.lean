import Schemata.Session

/-!
# Sessions — engines

Executing statements.  An engine opens a connection of its own for each piece of work and releases
it at the end.  `Engine.executeAll` executes statements in one transaction: it is committed after
the last of them, and rolled back as soon as one fails, with nothing executed after that one.

What may be refused is to create the engine, to open a connection, and to execute a statement.  To
begin, to commit, to roll back, to release and to dispose is presumed to succeed.
-/

namespace Schemata

/-- What statements are executed with. -/
structure Engine where
  backend : Backend
  url : String
  timeout : Int := 10
  deriving DecidableEq, Repr

namespace Engine

/-- Creates the engine for a database, unless there is no driver for its address. -/
def create (e : Engine) : Session ServerFault Unit :=
  Session.ask (.createEngine e.backend (e.backend.driverUrl e.url) e.timeout) Server.creates

/-- Works with a connection. -/
def withConnection {α : Type} (work : Session ServerFault α) : Session ServerFault α := do
  Session.ask .openConnection Server.accepts
  work.andFinally (Session.emit .release)

/-- Works in a transaction, which begins and ends as it is told to. -/
def inTransaction {α : Type} (work : Session ServerFault α) : Session ServerFault α := do
  Session.emit .begin
  let outcome ← work.attempt
  match outcome with
  | .ok a => do
    Session.emit .commit
    pure a
  | .error fault => do
    Session.emit .rollback
    Session.fail fault

/-- Executes one statement. -/
def execute (statement : String) : Session ServerFault Unit := do
  Session.note .debug s!"Executing: {statement}"
  Session.ask (.execute statement) Server.accepts

/-- Executes statements in one transaction, and answers how many they were. -/
def executeAll (statements : List String) : Session ServerFault Nat :=
  withConnection (inTransaction do
    statements.forM execute
    pure statements.length)

/-- Whether the database answers. -/
def test : Session ServerFault Bool :=
  withConnection do
    let rows ← Session.ask .probe Server.probes
    pure (isOne rows)

/-- Gives the engine up. -/
def dispose {ε : Type} : Session ε Unit := Session.emit .dispose

/-- What can be done with an engine. -/
inductive Step where
  | execute (statements : List String)
  | test
  | dispose
  deriving DecidableEq, Repr

/-- What comes of a step. -/
inductive Result where
  | executed (count : Nat)
  | tested (answers : Bool)
  | disposed
  deriving DecidableEq, Repr

/-- One step. -/
def perform : Step → Session ServerFault Result
  | .execute statements => do
    let count ← executeAll statements
    pure (.executed count)
  | .test => do
    let answers ← test
    pure (.tested answers)
  | .dispose => do
    dispose
    pure .disposed

/-- The runs of steps, one after the other. -/
def runs (s : Server) (past : List Event) : List Step → List (Run ServerFault Result)
  | [] => []
  | step :: steps =>
    let r := (perform step).run s past
    r :: runs s (past ++ r.events) steps

end Engine

end Schemata
