import Mathlib.Data.List.Basic
import Schemata.Session.Engine

/-!
# Proofs — sessions — one transaction

What an engine does with statements, whatever the server answers.  They are executed in their order,
up to the first that fails (`Engine.Executes`); around them is a transaction, which is committed
exactly if none failed (`Engine.Transacts`); and around the transaction is a connection, which is
released however the transaction ended (`Engine.Applies`).  Each layer adds its events to those of
the work inside, and leaves its outcome as it is (`Engine.inTransaction_run`,
`Engine.withConnection_run`).
-/

namespace Schemata

namespace Session

variable {ε ε' α β : Type}

theorem run_note_bind (level : Level) (text : String) (f : Unit → Session ε α) (s : Server)
    (past : List Event) :
    (note level text >>= f).run s past =
      ⟨((f ()).run s past).events, ⟨level, text⟩ :: ((f ()).run s past).entries,
        ((f ()).run s past).outcome⟩ := by
  rw [run_bind_ok (x := note level text) (a := ()) rfl]
  simp

theorem run_emit_bind (e : Event) (f : Unit → Session ε α) (s : Server) (past : List Event) :
    (emit e >>= f).run s past =
      ⟨e :: ((f ()).run s (past ++ [e])).events, ((f ()).run s (past ++ [e])).entries,
        ((f ()).run s (past ++ [e])).outcome⟩ := by
  rw [run_bind_ok (x := emit e) (a := ()) rfl]
  simp

/-- What is attempted comes before what is made of its outcome. -/
theorem run_attempt_bind (x : Session ε α) (f : Except ε α → Session ε' β) (s : Server)
    (past : List Event) :
    (x.attempt >>= f).run s past =
      ⟨(x.run s past).events ++
          ((f (x.run s past).outcome).run s (past ++ (x.run s past).events)).events,
        (x.run s past).entries ++
          ((f (x.run s past).outcome).run s (past ++ (x.run s past).events)).entries,
        ((f (x.run s past).outcome).run s (past ++ (x.run s past).events)).outcome⟩ := by
  rw [run_bind_ok (x := x.attempt) (a := (x.run s past).outcome) rfl]
  simp

/-- What is done in any case comes last, and changes no outcome. -/
theorem run_andFinally_emit (x : Session ε α) (e : Event) (s : Server) (past : List Event) :
    (x.andFinally (emit e)).run s past =
      ⟨(x.run s past).events ++ [e], (x.run s past).entries, (x.run s past).outcome⟩ := by
  unfold andFinally
  rw [run_attempt_bind, run_emit_bind]
  simp

end Session

/-- The server carries out the statements, one after the other. -/
def Server.Accepts (s : Server) (past : List Event) : List String → Prop
  | [] => True
  | statement :: rest =>
    s.accepts (past ++ [Event.execute statement]) = .ok () ∧
      s.Accepts (past ++ [Event.execute statement]) rest

namespace Engine

variable {s : Server} {past events : List Event} {statements : List String}

/-- Statements are executed in their order: all of them, or those up to the first that fails. -/
inductive Executes (s : Server) (past : List Event) (statements : List String) :
    List Event → Except ServerFault Unit → Prop
  | all (accepted : s.Accepts past statements) :
      Executes s past statements (statements.map .execute) (.ok ())
  | upTo (done rest : List String) {failing : String} {fault : ServerFault}
      (split : statements = done ++ failing :: rest) (accepted : s.Accepts past done)
      (refused : s.accepts (past ++ (done ++ [failing]).map .execute) = .error fault) :
      Executes s past statements ((done ++ [failing]).map .execute) (.error fault)

/-- A transaction is committed if everything in it was executed, and rolled back otherwise. -/
inductive Transacts (s : Server) (past : List Event) (statements : List String) :
    List Event → Except ServerFault Nat → Prop
  | committed {events : List Event}
      (executed : Executes s (past ++ [Event.begin]) statements events (.ok ())) :
      Transacts s past statements (Event.begin :: events ++ [Event.commit]) (.ok statements.length)
  | rolledBack {events : List Event} {fault : ServerFault}
      (executed : Executes s (past ++ [Event.begin]) statements events (.error fault)) :
      Transacts s past statements (Event.begin :: events ++ [Event.rollback]) (.error fault)

/-- If there is a connection, it is for one transaction. -/
inductive Applies (s : Server) (past : List Event) (statements : List String) :
    List Event → Except ServerFault Nat → Prop
  | refused {fault : ServerFault}
      (refused : s.accepts (past ++ [Event.openConnection]) = .error fault) :
      Applies s past statements [.openConnection] (.error fault)
  | connected {events : List Event} {outcome : Except ServerFault Nat}
      (accepted : s.accepts (past ++ [Event.openConnection]) = .ok ())
      (transacted : Transacts s (past ++ [Event.openConnection]) statements events outcome) :
      Applies s past statements (Event.openConnection :: events ++ [Event.release]) outcome

/-! ### Statements -/

/-- One more statement before the others. -/
theorem Executes.cons {statement : String} {outcome : Except ServerFault Unit}
    (accepted : s.accepts (past ++ [Event.execute statement]) = .ok ())
    (h : Executes s (past ++ [Event.execute statement]) statements events outcome) :
    Executes s past (statement :: statements) (.execute statement :: events) outcome := by
  cases h with
  | all hrest => exact .all ⟨accepted, hrest⟩
  | upTo done rest split hdone refused =>
      refine .upTo (statement :: done) rest (by rw [split]; rfl) ⟨accepted, hdone⟩ ?_
      rwa [List.append_assoc] at refused

theorem execute_run (statement : String) (s : Server) (past : List Event) :
    (execute statement).run s past =
      ⟨[.execute statement], [⟨.debug, s!"Executing: {statement}"⟩],
        s.accepts (past ++ [Event.execute statement])⟩ := by
  unfold execute
  rw [Session.run_note_bind]
  simp

/-- **To execute statements** asks the server for one after the other, up to the first fault. -/
theorem executes_run (s : Server) (past : List Event) (statements : List String) :
    Executes s past statements ((statements.forM execute).run s past).events
      ((statements.forM execute).run s past).outcome := by
  induction statements generalizing past with
  | nil => exact .all trivial
  | cons statement statements ih =>
      rw [List.forM_eq_forM, List.forM_cons]
      have hrun := execute_run statement s past
      cases h : s.accepts (past ++ [Event.execute statement]) with
      | error fault =>
          rw [h] at hrun
          rw [Session.run_bind_error (e := fault) (by rw [hrun]), hrun]
          exact .upTo [] statements rfl trivial h
      | ok =>
          rw [h] at hrun
          rw [Session.run_bind_ok (a := ()) (by rw [hrun]), hrun]
          exact .cons h (ih _)

/-! ### Around them -/

/-- The end of a transaction with this outcome. -/
def ending {α : Type} : Except ServerFault α → Event
  | .ok _ => .commit
  | .error _ => .rollback

/-- Work in a transaction stands between its beginning and its end. -/
theorem inTransaction_run {α : Type} (work : Session ServerFault α) (s : Server)
    (past : List Event) :
    ((inTransaction work).run s past).events =
        Event.begin :: (work.run s (past ++ [Event.begin])).events ++
          [ending (work.run s (past ++ [Event.begin])).outcome] ∧
      ((inTransaction work).run s past).outcome = (work.run s (past ++ [Event.begin])).outcome := by
  unfold inTransaction
  rw [Session.run_emit_bind, Session.run_attempt_bind]
  cases (work.run s (past ++ [Event.begin])).outcome with
  | ok a =>
      rw [Session.run_emit_bind]
      simp [ending]
  | error fault =>
      rw [Session.run_emit_bind]
      simp [ending]

/-- Work on a connection stands between its opening and its release. -/
theorem withConnection_run {α : Type} (work : Session ServerFault α) {s : Server}
    {past : List Event} (h : s.accepts (past ++ [Event.openConnection]) = .ok ()) :
    ((withConnection work).run s past).events =
        Event.openConnection :: (work.run s (past ++ [Event.openConnection])).events ++
          [Event.release] ∧
      ((withConnection work).run s past).outcome =
        (work.run s (past ++ [Event.openConnection])).outcome := by
  unfold withConnection
  rw [Session.run_bind_ok (x := Session.ask .openConnection Server.accepts) h]
  rw [Session.run_andFinally_emit]
  simp

/-- **A transaction** holds the statements that were executed, and ends as they did. -/
theorem transacts_run (s : Server) (past : List Event) (statements : List String) :
    let r := (inTransaction (do statements.forM execute; pure statements.length)).run s past
    Transacts s past statements r.events r.outcome := by
  intro r
  obtain ⟨hevents, houtcome⟩ := inTransaction_run
    (do statements.forM execute; pure statements.length) s past
  have hexecutes := executes_run s (past ++ [Event.begin]) statements
  rw [hevents, houtcome]
  cases h : ((statements.forM execute).run s (past ++ [Event.begin])).outcome with
  | ok =>
      rw [Session.run_bind_ok h]
      rw [h] at hexecutes
      simpa [ending] using Transacts.committed hexecutes
  | error fault =>
      rw [Session.run_bind_error h]
      rw [h] at hexecutes
      exact .rolledBack hexecutes

/-- **Statements are executed in one transaction**, if there is a connection. -/
theorem applies_run (s : Server) (past : List Event) (statements : List String) :
    Applies s past statements ((executeAll statements).run s past).events
      ((executeAll statements).run s past).outcome := by
  unfold executeAll
  cases h : s.accepts (past ++ [Event.openConnection]) with
  | error fault =>
      unfold withConnection
      rw [Session.run_bind_error (x := Session.ask .openConnection Server.accepts) h]
      exact .refused h
  | ok =>
      obtain ⟨hevents, houtcome⟩ := withConnection_run
        (inTransaction (do statements.forM execute; pure statements.length)) h
      rw [hevents, houtcome]
      exact .connected h (transacts_run s _ statements)

/-- A server that does not know the table that the second of three statements drops. -/
example :
    let s : Server :=
      { accepts := fun past =>
          if past.getLast? = some (.execute "DROP TABLE b") then
            .error ⟨.driver, "no such table: b"⟩ else .ok ()
        probes := fun _ => .ok []
        tables := fun _ => .ok []
        columns := fun _ => .ok []
        constraints := fun _ => .ok [] }
    ((executeAll ["DROP TABLE a", "DROP TABLE b", "DROP TABLE c"]).run s []).events =
      [.openConnection, .begin, .execute "DROP TABLE a", .execute "DROP TABLE b", .rollback,
       .release] := by
  decide +kernel

end Engine

end Schemata
