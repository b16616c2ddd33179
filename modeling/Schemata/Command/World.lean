import Schemata.Command
import Schemata.Files.Tree

/-!
# Commands — worlds

The surroundings of a command, held in memory: the files, the environment, the database server, and
what was printed, entered and done so far.  A world replies to a request and is another world
afterwards (`World.reply`), and so a command has an outcome in a world and leaves one behind
(`Command.run`).

* `run_keeps` — the server, the environment and the working directory stay as they are.
* `run_grows` — what was printed, entered and done stays, and more may follow it.
-/

namespace Schemata

/-- The surroundings of a command. -/
structure World where
  server : Server
  environment : List (String × String) := []
  directory : Path
  files : Tree := {}
  screen : String := ""
  entries : List Entry := []
  events : List Event := []

namespace World

/-- Where a path starts. -/
def start (w : World) (p : Path) : Place := if p.slashes = 0 then w.directory.parts else []

/-- The bytes of a file. -/
def read (w : World) (p : Path) : Except FileFault (List UInt8) :=
  (p.check >>= fun _ => w.files.read (w.start p) p.parts).mapError fun problem =>
    ⟨problem, p.text⟩

/-- The world with other files, or with the same if there is a problem. -/
def withFiles (w : World) (p : Path) (files : Except FileProblem Tree) :
    Except FileFault Unit × World :=
  match p.check >>= fun _ => files with
  | .ok files => (.ok (), { w with files })
  | .error problem => (.error ⟨problem, p.text⟩, w)

/-- The outcome of a session, and the world after it. -/
def session {ε α : Type} (w : World) (work : Session ε α) : Except ε α × World :=
  let r := work.run w.server w.events
  (r.outcome, { w with entries := w.entries ++ r.entries, events := w.events ++ r.events })

/-- The reply to a request, and the world after it. -/
def reply (w : World) : (r : Request) → r.Reply × World
  | .read p => (w.read p, w)
  | .makeDirectory p => w.withFiles p (w.files.makeDirectory (w.start p) p.parts)
  | .write p text => w.withFiles p (w.files.write (w.start p) p.parts text.toUTF8.toList)
  | .lookUp name => ((w.environment.lookup name).getD "", w)
  | .workingDirectory => (w.directory, w)
  | .print text => ((), { w with screen := w.screen ++ text })
  | .note e => ((), { w with entries := w.entries ++ [e] })
  | .introspect t timeout => w.session (t.introspector timeout).deployed
  | .migrate desired t options => w.session (Schemata.migrate desired t options)

/-- That the second world has the fixed parts of the first. -/
def Keeps (w w' : World) : Prop :=
  w'.server = w.server ∧ w'.environment = w.environment ∧ w'.directory = w.directory

/-- That what happened in the first world is the beginning of what happened in the second. -/
def Grows (w w' : World) : Prop :=
  w.screen.toList <+: w'.screen.toList ∧ w.entries <+: w'.entries ∧ w.events <+: w'.events

theorem Keeps.refl (w : World) : w.Keeps w := ⟨rfl, rfl, rfl⟩

theorem Keeps.trans {w w' w'' : World} (h : w.Keeps w') (h' : w'.Keeps w'') : w.Keeps w'' :=
  ⟨h'.1.trans h.1, h'.2.1.trans h.2.1, h'.2.2.trans h.2.2⟩

theorem Grows.refl (w : World) : w.Grows w :=
  ⟨List.prefix_refl _, List.prefix_refl _, List.prefix_refl _⟩

theorem Grows.trans {w w' w'' : World} (h : w.Grows w') (h' : w'.Grows w'') : w.Grows w'' :=
  ⟨h.1.trans h'.1, h.2.1.trans h'.2.1, h.2.2.trans h'.2.2⟩

theorem withFiles_keeps (w : World) (p : Path) (files : Except FileProblem Tree) :
    w.Keeps (w.withFiles p files).2 := by
  unfold withFiles
  split <;> exact Keeps.refl w

theorem withFiles_grows (w : World) (p : Path) (files : Except FileProblem Tree) :
    w.Grows (w.withFiles p files).2 := by
  unfold withFiles
  split <;> exact Grows.refl w

theorem reply_keeps (w : World) (r : Request) : w.Keeps (w.reply r).2 := by
  cases r with
  | makeDirectory p => exact withFiles_keeps w p _
  | write p text => exact withFiles_keeps w p _
  | _ => exact Keeps.refl w

theorem reply_grows (w : World) (r : Request) : w.Grows (w.reply r).2 := by
  cases r with
  | read _ | lookUp _ | workingDirectory => exact Grows.refl w
  | makeDirectory p => exact withFiles_grows w p _
  | write p text => exact withFiles_grows w p _
  | print text =>
    exact ⟨by simp [reply, String.toList_append], List.prefix_refl _, List.prefix_refl _⟩
  | note e => exact ⟨List.prefix_refl _, List.prefix_append _ _, List.prefix_refl _⟩
  | introspect t timeout =>
    exact ⟨List.prefix_refl _, List.prefix_append _ _, List.prefix_append _ _⟩
  | migrate desired t options =>
    exact ⟨List.prefix_refl _, List.prefix_append _ _, List.prefix_append _ _⟩

end World

namespace Command

variable {α β : Type}

/-- The outcome of a command in a world, and the world after it. -/
def run : Command α → World → Except CommandError α × World
  | .done a, w => (.ok a, w)
  | .fail error, w => (.error error, w)
  | .ask request next, w => (next (w.reply request).1).run (w.reply request).2

@[simp] theorem run_pure (a : α) (w : World) : (pure a : Command α).run w = (.ok a, w) := rfl

@[simp] theorem run_request (r : Request) (w : World) :
    (request r).run w = (.ok (w.reply r).1, (w.reply r).2) := rfl

/-- What follows a command is run in the world that it leaves, unless it failed. -/
theorem run_bind (c : Command α) (f : α → Command β) (w : World) :
    (c >>= f).run w =
      match c.run w with
      | (.ok a, w') => (f a).run w'
      | (.error error, w') => (.error error, w') := by
  show (Command.bind c f).run w = _
  induction c generalizing w with
  | done a => rfl
  | fail error => rfl
  | ask request next ih => exact ih _ _

/-- An error is handled in the world that the command leaves. -/
theorem run_handle (c : Command α) (f : CommandError → Command α) (w : World) :
    (c.handle f).run w =
      match c.run w with
      | (.ok a, w') => (.ok a, w')
      | (.error error, w') => (f error).run w' := by
  induction c generalizing w with
  | done a => rfl
  | fail error => rfl
  | ask request next ih => exact ih _ _

/-- Nothing fixed changes while a command runs. -/
theorem run_keeps (c : Command α) (w : World) : w.Keeps (c.run w).2 := by
  induction c generalizing w with
  | done a => exact World.Keeps.refl w
  | fail error => exact World.Keeps.refl w
  | ask request next ih => exact (w.reply_keeps request).trans (ih _ _)

/-- Nothing that happened is undone while a command runs. -/
theorem run_grows (c : Command α) (w : World) : w.Grows (c.run w).2 := by
  induction c generalizing w with
  | done a => exact World.Grows.refl w
  | fail error => exact World.Grows.refl w
  | ask request next ih => exact (w.reply_grows request).trans (ih _ _)

end Command

end Schemata
