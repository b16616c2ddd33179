import Schemata.Catalog.Rows
import Schemata.Connection.Login
import Schemata.Connection.Target
import Schemata.Journal
import Schemata.Schema

/-!
# Sessions

What happens between the program and a database.  An `Event` is one thing that the program does: it
connects, asks the catalog, executes a statement.  A `Server` is the other side, and answers each
request as it likes; its answer may depend on everything that happened before.

A `Session ε α` is work that talks to a server.  From a server and the events so far it makes a
`Run`: the events that it adds, the entries of its journal, and how it ends.  Sequencing appends
the events and the entries (`run_bind_ok`, `run_bind_error`).  What is done about an error is said
by `attempt`, which turns it into a value, and by `andFinally`, which does one thing more in either
case.
-/

namespace Schemata

/-- What the catalog connection is asked. -/
inductive Query where
  | probe
  | tables (schema : Option String)
  | columns (schema : Option String) (table : String)
  | constraints (schema : Option String) (table : String)
  deriving DecidableEq, Repr

/-- How the catalog is connected to: Postgres takes an address, MySQL its parts. -/
inductive Connector where
  | address (url : String) (timeout : Int)
  | login (login : Login)
  deriving DecidableEq, Repr

/-- What the program does with a database. -/
inductive Event where
  | connect (connector : Connector)
  | query (query : Query)
  | close
  | createEngine (backend : Backend) (url : String) (timeout : Int)
  | openConnection
  | begin
  | execute (statement : String)
  | probe
  | commit
  | rollback
  | release
  | dispose
  deriving DecidableEq, Repr

/-- Where a fault comes from: the driver of the database, the system, a client that knows that the
database cannot be reached, or anything else. -/
inductive FaultOrigin where
  | driver
  | system
  | client
  | other
  deriving DecidableEq, Repr

/-- An answer that is none. -/
structure ServerFault where
  origin : FaultOrigin
  message : String
  deriving DecidableEq, Repr

/-- Rows of values, some of which are null. -/
abbrev ValueRows : Type := List (List (Option Literal))

/-- The other side: what is answered after the events so far, the last of which is the request.
Whether an engine can be created is for the drivers to say; most servers have one. -/
structure Server where
  accepts : List Event → Except ServerFault Unit
  creates : List Event → Except ServerFault Unit := fun _ => .ok ()
  probes : List Event → Except ServerFault ValueRows
  tables : List Event → Except ServerFault (List String)
  columns : List Event → Except ServerFault (List ColumnRow)
  constraints : List Event → Except ServerFault (List ConstraintRow)

/-- Whether the first value of the first row is the number one. -/
def isOne (rows : ValueRows) : Bool :=
  match rows with
  | (some v :: _) :: _ => v.same (.int 1)
  | _ => false

/-- What a session did, and how it ended. -/
structure Run (ε α : Type) where
  events : List Event
  entries : List Entry
  outcome : Except ε α

/-- Work that talks to a server, from the events so far. -/
def Session (ε α : Type) : Type := Server → List Event → Run ε α

namespace Session

variable {ε α β : Type}

/-- What the session does with a server after some events. -/
def run (x : Session ε α) (s : Server) (past : List Event) : Run ε α := x s past

/-- A value, and nothing done. -/
def ok (a : α) : Session ε α := fun _ _ => ⟨[], [], .ok a⟩

/-- An error, and nothing done. -/
def fail (e : ε) : Session ε α := fun _ _ => ⟨[], [], .error e⟩

/-- The outcome `r`, and nothing done. -/
def ofExcept (r : Except ε α) : Session ε α := fun _ _ => ⟨[], [], r⟩

/-- Work that does not talk to the server. -/
def ofJournal (j : Journal ε α) : Session ε α := fun _ _ => ⟨[], j.entries, j.outcome⟩

/-- One entry. -/
def note (level : Level) (text : String) : Session ε Unit :=
  fun _ _ => ⟨[], [⟨level, text⟩], .ok ()⟩

/-- Something is done that is not answered. -/
def emit (e : Event) : Session ε Unit := fun _ _ => ⟨[e], [], .ok ()⟩

/-- A request, and its answer. -/
def ask (e : Event) (reply : Server → List Event → Except ServerFault α) :
    Session ServerFault α :=
  fun s past => ⟨[e], [], reply s (past ++ [e])⟩

/-- First `x`, then, if it did not fail, what `f` makes of its value. -/
protected def bind (x : Session ε α) (f : α → Session ε β) : Session ε β := fun s past =>
  match x s past with
  | ⟨events, entries, .error e⟩ => ⟨events, entries, .error e⟩
  | ⟨events, entries, .ok a⟩ =>
    let r := f a s (past ++ events)
    ⟨events ++ r.events, entries ++ r.entries, r.outcome⟩

instance : Monad (Session ε) where
  pure := ok
  bind := Session.bind

/-- The same session with another type of errors. -/
def mapError {ε' : Type} (f : ε → ε') (x : Session ε α) : Session ε' α := fun s past =>
  let r := x s past
  ⟨r.events, r.entries, r.outcome.mapError f⟩

/-- The session with its outcome as a value. -/
def attempt {ε' : Type} (x : Session ε α) : Session ε' (Except ε α) := fun s past =>
  let r := x s past
  ⟨r.events, r.entries, .ok r.outcome⟩

/-- First `x`, then `y` whether or not `x` failed; the outcome is that of `x` unless `y` fails. -/
def andFinally (x : Session ε α) (y : Session ε Unit) : Session ε α := do
  let outcome ← x.attempt
  y
  ofExcept outcome

@[simp] theorem run_ok (a : α) (s : Server) (past : List Event) :
    (ok a : Session ε α).run s past = ⟨[], [], .ok a⟩ := rfl

@[simp] theorem run_pure (a : α) (s : Server) (past : List Event) :
    (pure a : Session ε α).run s past = ⟨[], [], .ok a⟩ := rfl

@[simp] theorem run_fail (e : ε) (s : Server) (past : List Event) :
    (fail e : Session ε α).run s past = ⟨[], [], .error e⟩ := rfl

@[simp] theorem run_ofExcept (r : Except ε α) (s : Server) (past : List Event) :
    (ofExcept r).run s past = ⟨[], [], r⟩ := rfl

@[simp] theorem run_ofJournal (j : Journal ε α) (s : Server) (past : List Event) :
    (ofJournal j).run s past = ⟨[], j.entries, j.outcome⟩ := rfl

@[simp] theorem run_note (level : Level) (text : String) (s : Server) (past : List Event) :
    (note level text : Session ε Unit).run s past = ⟨[], [⟨level, text⟩], .ok ()⟩ := rfl

@[simp] theorem run_emit (e : Event) (s : Server) (past : List Event) :
    (emit e : Session ε Unit).run s past = ⟨[e], [], .ok ()⟩ := rfl

@[simp] theorem run_ask (e : Event) (reply : Server → List Event → Except ServerFault α)
    (s : Server) (past : List Event) :
    (ask e reply).run s past = ⟨[e], [], reply s (past ++ [e])⟩ := rfl

@[simp] theorem run_mapError {ε' : Type} (f : ε → ε') (x : Session ε α) (s : Server)
    (past : List Event) :
    (x.mapError f).run s past =
      ⟨(x.run s past).events, (x.run s past).entries, (x.run s past).outcome.mapError f⟩ := rfl

@[simp] theorem run_attempt {ε' : Type} (x : Session ε α) (s : Server) (past : List Event) :
    (x.attempt : Session ε' (Except ε α)).run s past =
      ⟨(x.run s past).events, (x.run s past).entries, .ok (x.run s past).outcome⟩ := rfl

theorem run_bind_error {x : Session ε α} {s : Server} {past : List Event} {e : ε}
    (h : (x.run s past).outcome = .error e) (f : α → Session ε β) :
    (x >>= f).run s past = ⟨(x.run s past).events, (x.run s past).entries, .error e⟩ := by
  show Session.bind x f s past = _
  unfold run at h ⊢
  unfold Session.bind
  split
  next hx => rw [hx] at h ⊢; cases h; rfl
  next hx => rw [hx] at h; cases h

theorem run_bind_ok {x : Session ε α} {s : Server} {past : List Event} {a : α}
    (h : (x.run s past).outcome = .ok a) (f : α → Session ε β) :
    (x >>= f).run s past =
      ⟨(x.run s past).events ++ ((f a).run s (past ++ (x.run s past).events)).events,
       (x.run s past).entries ++ ((f a).run s (past ++ (x.run s past).events)).entries,
       ((f a).run s (past ++ (x.run s past).events)).outcome⟩ := by
  show Session.bind x f s past = _
  unfold run at h ⊢
  unfold Session.bind
  split
  next hx => rw [hx] at h; cases h
  next hx => rw [hx] at h ⊢; cases h; rfl

end Session

/-- Why a session failed. -/
inductive SessionError where
  | notConnected
  | address (fault : UrlFault)
  | unreachable (message : String)
  | untested (message : String)
  | unreadable (message : String)
  | numeral (fault : NumeralFault)
  | server (fault : ServerFault)
  deriving DecidableEq, Repr

def SessionError.message : SessionError → String
  | .notConnected => "Introspector not connected. Use 'async with'."
  | .address fault => fault.message
  | .unreachable message => s!"Could not connect to database: {message}"
  | .untested message => s!"Connection test failed: {message}"
  | .unreadable message => s!"Introspection failed: {message}"
  | .numeral fault => fault.message
  | .server fault => fault.message

end Schemata
