import Schemata.Command.Report
import Schemata.Command.Tasks
import Schemata.Command.World
import Schemata.Proofs.Files
import Schemata.Proofs.Session.Migration

/-!
# Proofs — commands — effects

What a command can do to its surroundings, read off the requests that it can make
(`Command.Makes`).  If every one of them leaves the world in a relation to what it was before, then
so does the command, whatever it is replied (`Command.Makes.run`).

* `Request.IsQuiet` — requests that touch no file and no database; compiling and reporting make no
  others (`makes_compilePath`, `makes_report`).
* `Request.Shows` — the requests of a migration that is only shown; they change one file at most, and
  of the database they ask the catalog (`Request.Shows.reply`).
-/

namespace Schemata

/-! ### What is asked for -/

/-- Every request that the command can make, whatever it is replied, is one of those. -/
inductive Command.Makes {α : Type} (P : Request → Prop) : Command α → Prop
  | done (a : α) : Makes P (.done a)
  | fail (error : CommandError) : Makes P (.fail error)
  | ask {request : Request} {next : request.Reply → Command α} (asked : P request)
      (rest : ∀ reply, (next reply).Makes P) : Makes P (.ask request next)

/-- A request that touches no file and no database. -/
def Request.IsQuiet : Request → Prop
  | .read _ | .lookUp _ | .workingDirectory | .print _ | .note _ => True
  | .makeDirectory _ | .write _ _ | .introspect _ _ | .migrate _ _ _ => False

namespace Command

variable {α β ε : Type} {P Q : Request → Prop}

theorem makes_pure (a : α) : (pure a : Command α).Makes P := .done a

theorem makes_request {r : Request} (h : P r) : (request r).Makes P := .ask h .done

theorem makes_ofExcept (f : ε → CommandError) (x : Except ε α) : (ofExcept f x).Makes P := by
  cases x with
  | ok a => exact .done a
  | error e => exact .fail _

/-- What makes some requests makes requests of a wider kind. -/
theorem Makes.mono {c : Command α} (h : c.Makes P) (hPQ : ∀ r, P r → Q r) : c.Makes Q := by
  induction h with
  | done a => exact .done a
  | fail error => exact .fail error
  | ask asked _ ih => exact .ask (hPQ _ asked) ih

/-- What is done one after the other makes the requests of both. -/
theorem Makes.bind {c : Command α} {f : α → Command β} (hc : c.Makes P) (hf : ∀ a, (f a).Makes P) :
    (c >>= f).Makes P := by
  show (Command.bind c f).Makes P
  induction hc with
  | done a => exact hf a
  | fail error => exact .fail error
  | ask asked _ ih => exact .ask asked ih

/-- What is done about an error makes the requests of both. -/
theorem Makes.handle {c : Command α} {f : CommandError → Command α} (hc : c.Makes P)
    (hf : ∀ error, (f error).Makes P) : (c.handle f).Makes P := by
  induction hc with
  | done a => exact .done a
  | fail error => exact hf error
  | ask asked _ ih => exact .ask asked ih

/-- What is done in either case makes the requests of both. -/
theorem Makes.ite {p : Prop} [Decidable p] {c d : Command α} (hc : c.Makes P) (hd : d.Makes P) :
    (if p then c else d).Makes P := by
  split
  · exact hc
  · exact hd

/-- What is done for each thing makes the requests that each makes. -/
theorem makes_forM {f : α → Command Unit} (hf : ∀ a, (f a).Makes P) (xs : List α) :
    (xs.forM f).Makes P := by
  induction xs with
  | nil => exact makes_pure ()
  | cons x xs ih => exact (hf x).bind fun _ => ih

/-- What every request keeps between the world before and the world after it, the command keeps. -/
theorem Makes.run {R : World → World → Prop} {c : Command α} (h : c.Makes P)
    (hrefl : ∀ w, R w w) (htrans : ∀ {w w' w''}, R w w' → R w' w'' → R w w'')
    (hreply : ∀ w r, P r → R w (w.reply r).2) (w : World) : R w (c.run w).2 := by
  induction h generalizing w with
  | done a => exact hrefl w
  | fail error => exact hrefl w
  | ask asked _ ih => exact htrans (hreply w _ asked) (ih _ _)

/-! ### Quiet commands -/

/-- A command that touches no file and no database. -/
abbrev IsQuiet (c : Command α) : Prop := c.Makes Request.IsQuiet

theorem quiet_note (level : Level) (text : String) : (note level text).IsQuiet :=
  makes_request trivial

theorem quiet_ofJournal (f : ε → CommandError) (j : Journal ε α) : (ofJournal f j).IsQuiet :=
  (makes_forM (fun _ => makes_request trivial) _).bind fun _ => makes_ofExcept _ _

theorem quiet_printLine (text : String) : (printLine text).IsQuiet := makes_request trivial

theorem quiet_printMarkup (layOut : String → String) (text : String) :
    (printMarkup layOut text).IsQuiet :=
  (makes_ofExcept _ _).bind fun _ => makes_request trivial

theorem quiet_printGrid (g : Display.Grid) : (printGrid g).IsQuiet :=
  (makes_ofExcept _ _).bind fun _ => makes_request trivial

/-- To tell of a migration is quiet. -/
theorem quiet_tellMigration (m : Migration) : (tellMigration m).IsQuiet := by
  have htell : Unit → IsQuiet (if m.hasChanges then do
      printLine "\n--- Generated Migration SQL ---"
      printLine m.script.toSql
      printLine ""
      if m.isDryRun then
        printLine "Dry run: nothing applied. Remove --dry-run to apply."
      else
        printSuccess s!"Migration applied successfully ({m.executed} statements)"
    else do
      printLine ""
      printSuccess "No migration needed.") := fun _ =>
    .ite ((quiet_printLine _).bind fun _ => (quiet_printLine _).bind fun _ =>
        (quiet_printLine _).bind fun _ => .ite (quiet_printLine _) (quiet_printMarkup _ _))
      ((quiet_printLine _).bind fun _ => quiet_printMarkup _ _)
  exact .ite ((quiet_printLine _).bind htell) (htell ())

/-- Compiling a file is quiet. -/
theorem quiet_compilePath (path : Path) (isStrict : Bool) : (compilePath path isStrict).IsQuiet :=
  (quiet_printMarkup _ _).bind fun _ => (makes_request trivial).bind fun _ =>
    (quiet_ofJournal _ _).bind fun _ => makes_ofExcept _ _

/-- To check a schema is quiet. -/
theorem quiet_check (s : Settings) (schemaFile : Option String) (isStrict shows : Bool) :
    (check s schemaFile isStrict shows).IsQuiet :=
  (quiet_compilePath _ _).bind fun _ => (quiet_printLine _).bind fun _ =>
    (quiet_printMarkup _ _).bind fun _ => .ite (quiet_printGrid _) (makes_pure _)

/-- Reporting an error is quiet. -/
theorem quiet_report (error : CommandError) : error.report.IsQuiet := by
  refine (quiet_printLine _).bind fun _ => ?_
  split
  next findings =>
    have hlines : Unit → (findings.forM fun d => printLine ("  " ++ d.text)).IsQuiet := fun _ =>
      makes_forM (fun _ => quiet_printLine _) _
    exact (quiet_printMarkup _ _).bind fun _ => .ite ((quiet_printLine _).bind hlines) (hlines ())
  next script cause =>
    exact (quiet_printMarkup _ _).bind fun _ => (quiet_printLine _).bind fun _ =>
      (quiet_printLine _).bind fun _ => quiet_printMarkup _ _
  next => exact quiet_printMarkup _ _

end Command

/-! ### What they do -/

namespace World

/-- That two worlds have the same files, and the same was done with the database. -/
def Leaves (w w' : World) : Prop := w'.files = w.files ∧ w'.events = w.events

theorem Leaves.refl (w : World) : w.Leaves w := ⟨rfl, rfl⟩

theorem Leaves.trans {w w' w'' : World} (h : w.Leaves w') (h' : w'.Leaves w'') : w.Leaves w'' :=
  ⟨h'.1.trans h.1, h'.2.trans h.2⟩

end World

/-- The answer to a quiet request leaves files and databases. -/
theorem Request.IsQuiet.reply {r : Request} (h : r.IsQuiet) (w : World) :
    w.Leaves (w.reply r).2 := by
  cases r with
  | read _ | lookUp _ | workingDirectory | print _ | note _ => exact .refl w
  | makeDirectory _ | write _ _ | introspect _ _ | migrate _ _ _ => exact h.elim

/-- **A quiet command** leaves no trace. -/
theorem Command.IsQuiet.leaves {α : Type} {c : Command α} (h : c.IsQuiet) (w : World) :
    w.Leaves (c.run w).2 :=
  h.run .refl .trans (fun w _ hr => hr.reply w) w

/-! ### Introspecting -/

/-- A request that touches no file. -/
def Request.KeepsFiles : Request → Prop
  | .makeDirectory _ | .write _ _ => False
  | _ => True

/-- The answer to a request that keeps the files leaves them. -/
theorem Request.KeepsFiles.reply {r : Request} (h : r.KeepsFiles) (w : World) :
    (w.reply r).2.files = w.files := by
  cases r with
  | makeDirectory _ | write _ _ => exact h.elim
  | _ => rfl

theorem Request.IsQuiet.keepsFiles {r : Request} (h : r.IsQuiet) : r.KeepsFiles := by
  cases r with
  | makeDirectory _ | write _ _ => exact h
  | _ => trivial

namespace Command

/-- Introspecting touches no file. -/
theorem introspect_keepsFiles (s : Settings) (t : Target) :
    (introspect s t).Makes Request.KeepsFiles := by
  have hquiet {c : Command Unit} (h : c.IsQuiet) : c.Makes Request.KeepsFiles :=
    h.mono fun _ => Request.IsQuiet.keepsFiles
  exact (hquiet (quiet_printMarkup _ _)).bind fun _ => (makes_request trivial).bind fun _ =>
    (makes_ofExcept _ _).bind fun _ =>
      .ite (hquiet (quiet_printMarkup _ _)) (hquiet (quiet_printGrid _))

/-- A command that keeps the files leaves them. -/
theorem Makes.files_eq {α : Type} {c : Command α} (h : c.Makes Request.KeepsFiles) (w : World) :
    (c.run w).2.files = w.files :=
  h.run (R := fun w w' => w'.files = w.files) (fun _ => rfl) (fun h h' => h'.trans h)
    (fun w _ hr => hr.reply w) w

end Command

/-! ### A migration that is only shown -/

/-- What is done to read the catalog. -/
def Event.IsReading : Event → Prop
  | .connect _ | .query _ | .close => True
  | _ => False

namespace Session

variable {ε ε' α β : Type}

/-- Nothing is done but to read the catalog. -/
def Reads (x : Session ε α) : Prop := ∀ s past, ∀ e ∈ (x.run s past).events, e.IsReading

/-- A session without events reads. -/
theorem reads_of_events {x : Session ε α} (h : ∀ s past, (x.run s past).events = []) : x.Reads := by
  intro s past e he
  rw [h] at he
  cases he

/-- Sessions that read, one after the other, read. -/
theorem Reads.bind {x : Session ε α} {f : α → Session ε β} (hx : x.Reads) (hf : ∀ a, (f a).Reads) :
    (x >>= f).Reads := by
  intro s past e he
  cases h : (x.run s past).outcome with
  | error error =>
      rw [run_bind_error h] at he
      exact hx s past e he
  | ok a =>
      rw [run_bind_ok h] at he
      rcases List.mem_append.mp he with he | he
      · exact hx s past e he
      · exact hf a s _ e he

end Session

/-- The events of an introspection are those of reading. -/
theorem Introspector.Deploys.isReading {i : Introspector} {s : Server} {past events : List Event}
    {outcome : Except SessionError Schema} (h : i.Deploys s past events outcome) :
    ∀ e ∈ events, e.IsReading := by
  intro e he
  cases h with
  | noAddress => cases he
  | refused => exact List.mem_singleton.mp he ▸ trivial
  | connected =>
      rw [List.cons_append, List.mem_cons, List.mem_append, List.mem_map, List.mem_singleton] at he
      rcases he with rfl | ⟨q, -, rfl⟩ | rfl <;> trivial

/-- **A migration that is only shown** does nothing but read the catalog. -/
theorem reads_migrate {options : MigrationOptions} (h : options.isDryRun = true) (desired : Schema)
    (t : Target) : (migrate desired t options).Reads := by
  have hread : ((t.introspector options.timeout).deployed.mapError MigrationError.session).Reads :=
    fun s past => ((t.introspector options.timeout).deploys_run s past).isReading
  have hnote (deployed : Schema) : (noteDeployed deployed).Reads :=
    Session.reads_of_events fun s past => by
      obtain ⟨entries, hrun⟩ := noteDeployed_run deployed s past
      rw [hrun]
  refine hread.bind fun deployed => (hnote deployed).bind fun _ =>
    (Session.reads_of_events fun s past => rfl).bind fun script => ?_
  rw [h]
  split
  · exact Session.reads_of_events fun s past => rfl
  · exact Session.reads_of_events fun s past => rfl

/-- A request of a migration that is only shown; `types` is the file that it may write. -/
inductive Request.Shows (types : Option Path) : Request → Prop
  | quiet {r : Request} (isQuiet : r.IsQuiet) : Shows types r
  | makeDirectory {p : Path} (isTypes : types = some p) : Shows types (.makeDirectory p.parent)
  | write {p : Path} {text : String} (isTypes : types = some p) : Shows types (.write p text)
  | migrate {desired : Schema} {t : Target} {options : MigrationOptions}
      (isDryRun : options.isDryRun = true) : Shows types (.migrate desired t options)

/-- That the database was only read between two worlds, and at most one file is another in the
second: what else is new are directories on the way to that file, where nothing was. -/
structure World.Shows (types : Option Path) (w w' : World) : Prop where
  directory : w'.directory = w.directory
  noFile : types = none → w'.files = w.files
  oneFile : ∀ p, types = some p → Tree.KeepsBut (w.start p) p.parts w.files w'.files
  events : ∃ events, w'.events = w.events ++ events ∧ ∀ e ∈ events, e.IsReading

namespace World.Shows

variable {types : Option Path} {w w' w'' : World}

/-- What leaves the world may be shown. -/
theorem of_leaves (hdirectory : w'.directory = w.directory) (h : w.Leaves w') :
    w.Shows types w' :=
  ⟨hdirectory, fun _ => h.1, fun _ _ => h.1 ▸ .refl _ _ _, [], by rw [h.2, List.append_nil],
    fun _ he => by cases he⟩

theorem refl (w : World) : w.Shows types w := of_leaves rfl (.refl w)

/-- What is shown, one after the other, is shown. -/
theorem trans (h : w.Shows types w') (h' : w'.Shows types w'') : w.Shows types w'' := by
  obtain ⟨events, hevents, hread⟩ := h.events
  obtain ⟨events', hevents', hread'⟩ := h'.events
  refine ⟨h'.directory.trans h.directory, fun hnone => (h'.noFile hnone).trans (h.noFile hnone),
    fun p hp => (h.oneFile p hp).trans ?_, events ++ events', ?_, fun e he => ?_⟩
  · have hstart : w'.start p = w.start p := by
      unfold World.start
      rw [h.directory]
    exact hstart ▸ h'.oneFile p hp
  · rw [hevents', hevents, List.append_assoc]
  · exact (List.mem_append.mp he).elim (hread e) (hread' e)

/-- A tree that is written in is all that changes. -/
theorem withFiles {p q : Path} {files : Except FileProblem Tree}
    (h : ∀ tree, files = .ok tree → Tree.KeepsBut (w.start p) p.parts w.files tree) :
    w.Shows (some p) (w.withFiles q files).2 := by
  unfold World.withFiles
  split
  next tree hfiles =>
    refine ⟨rfl, nofun, fun p' hp => ?_, [], (List.append_nil _).symm, fun _ he => by cases he⟩
    cases hp
    obtain ⟨-, -, htree⟩ := Except.bind_eq_ok_iff.mp hfiles
    exact h tree htree
  next => exact refl w

end World.Shows

/-- Each request of a migration that is only shown keeps to that. -/
theorem Request.Shows.reply {types : Option Path} {r : Request} (h : r.Shows types) (w : World) :
    w.Shows types (w.reply r).2 := by
  cases h with
  | quiet isQuiet => exact .of_leaves (w.reply_keeps r).2.2 (isQuiet.reply w)
  | makeDirectory isTypes =>
      subst isTypes
      exact .withFiles fun tree htree => Tree.keepsBut_makeDirectory htree
  | write isTypes =>
      subst isTypes
      exact .withFiles fun tree htree => Tree.keepsBut_write htree
  | migrate isDryRun =>
      exact ⟨rfl, fun _ => rfl, fun _ _ => .refl _ _ _, _, rfl,
        reads_migrate isDryRun _ _ w.server w.events⟩

namespace Command

/-- What a migration that is only shown may write: the types, unless they are skipped. -/
def typesPath (s : Settings) (skipsTypes : Bool) : Option Path :=
  if skipsTypes then none else some (Path.ofString s.typesFile)

/-- To write the types writes their file, and makes nothing but its directory. -/
theorem writeTypes_shows (schema : Schema) (p : Path) :
    (writeTypes schema p).Makes (Request.Shows (some p)) := by
  have hquiet {α : Type} {c : Command α} (h : c.IsQuiet) : c.Makes (Request.Shows (some p)) :=
    h.mono fun _ => .quiet
  exact ((makes_request (.makeDirectory rfl)).bind fun _ => makes_ofExcept _ _).bind fun _ =>
    (hquiet (quiet_ofJournal _ _)).bind fun _ =>
      ((makes_request (.write rfl)).bind fun _ => makes_ofExcept _ _).bind fun _ =>
        hquiet (quiet_note _ _)

/-- **A migration that is only shown** asks for no more than that. -/
theorem migrate_shows (s : Settings) (t : Target) (schemaFile : Option String)
    (skipsTypes : Bool) :
    (migrate s t schemaFile true skipsTypes).Makes (Request.Shows (typesPath s skipsTypes)) := by
  have hquiet {α : Type} {c : Command α} (h : c.IsQuiet) :
      c.Makes (Request.Shows (typesPath s skipsTypes)) := h.mono fun _ => .quiet
  have hrest (schema : Schema) : Unit → (do
      let outcome ← request (.migrate schema t
        { isDryRun := true, quotes := s.quotes, timeout := s.timeout })
      let migration ← ofExcept .migration outcome
      tellMigration migration : Command Unit).Makes (Request.Shows (typesPath s skipsTypes)) :=
    fun _ => (makes_request (.migrate rfl)).bind fun _ => (makes_ofExcept _ _).bind fun _ =>
      hquiet (quiet_tellMigration _)
  refine (hquiet (quiet_compilePath _ _)).bind fun schema => ?_
  cases skipsTypes with
  | true => exact hrest schema ()
  | false =>
      exact (writeTypes_shows schema _).bind fun _ => (hquiet (quiet_printMarkup _ _)).bind
        (hrest schema)

end Command

end Schemata
