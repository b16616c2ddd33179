import Schemata.CommandLine
import Schemata.Proofs.Command.Effects

/-!
# Proofs — commands — failing early

When a command cannot do what it is asked for: its settings are rejected, it does not know its
database, its schema does not compile, or there is no script for it (`Invocation.Fails`).  Each of
these is told by what is in the world, before anything is done.

Then the program does not end in success, and it leaves no file and no database otherwise than it
was (`respond_effects`).  That theorem also says what can be counted on whatever happens: checking
and introspecting write no file, and a migration that is only shown changes one file at most and
creates no engine.
-/

namespace Schemata

/-! ### What a world says before anything is done -/

namespace Invocation

/-- The settings that hold in a world. -/
def settingsIn (i : Invocation) (w : World) : Except SettingsError Settings :=
  let asked := i.settingsFile.getD ""
  if asked.isEmpty then
    let path := w.directory.join (Path.ofString usualSettingsFile)
    Settings.ofFile path.text false (w.read path)
  else
    let path := Path.ofString asked
    Settings.ofFile path.text true (w.read path)

/-- The database that the environment names. -/
def targetIn (i : Invocation) (s : Settings) (w : World) : Except TargetError Target :=
  let variableName := i.variableFront.getD s.variableFront ++ s.variableName
  Target.resolve variableName ((w.environment.lookup variableName).getD "")

end Invocation

/-- The schema in a file. -/
def World.compiled (w : World) (path : Path) (isStrict : Bool) : Except SourceError Schema :=
  (compileFile path.text (w.read path) isStrict).outcome.bind Compilation.accept

namespace Task

/-- Whether a task works on a database. -/
def UsesDatabase : Task → Prop
  | .introspect | .migrate .. => True
  | .check .. | .generate .. | .types .. => False

/-- The file that a task compiles, and how strictly.  Introspecting compiles none. -/
def source? (s : Settings) : Task → Option (Path × Bool)
  | .check schemaFile isStrict _ => some (chosenFile schemaFile s.schemaFile, isStrict || s.strict)
  | .generate schemaFile _ _ _ => some (chosenFile schemaFile s.schemaFile, s.strict)
  | .types schemaFile _ => some (chosenFile schemaFile s.schemaFile, s.strict)
  | .introspect => none
  | .migrate schemaFile _ _ => some (chosenFile schemaFile s.schemaFile, s.strict)

end Task

/-- **What is asked for cannot be done.**  The settings are rejected; there is no telling the
database that is to be worked on; the schema cannot be read, or does not compile; there is no script
to generate for it. -/
inductive Invocation.Fails (i : Invocation) (w : World) : Prop
  | settings {error : SettingsError} (rejected : i.settingsIn w = .error error)
  | target {s : Settings} {error : TargetError} (settled : i.settingsIn w = .ok s)
      (uses : i.task.UsesDatabase) (unknown : i.targetIn s w = .error error)
  | file {s : Settings} {path : Path} {isStrict : Bool} {fault : FileFault}
      (settled : i.settingsIn w = .ok s) (source : i.task.source? s = some (path, isStrict))
      (unreadable : w.read path = .error fault)
  | source {s : Settings} {path : Path} {isStrict : Bool} {error : SourceError}
      (settled : i.settingsIn w = .ok s) (source : i.task.source? s = some (path, isStrict))
      (wrong : w.compiled path isStrict = .error error)
  | plan {s : Settings} {schemaFile output : Option String} {d : Dialect} {quotes : Bool}
      {path : Path} {isStrict : Bool} {schema : Schema} {error : PlanError}
      (settled : i.settingsIn w = .ok s) (task : i.task = .generate schemaFile d output quotes)
      (source : i.task.source? s = some (path, isStrict))
      (compiled : w.compiled path isStrict = .ok schema)
      (unplanned : (planScript ⟨d, quotes || s.quotes⟩ schema none).outcome = .error error)

/-! ### Stopping -/

theorem World.read_eq {w w' : World} (hfiles : w'.files = w.files)
    (hdirectory : w'.directory = w.directory) (p : Path) : w'.read p = w.read p := by
  unfold read start
  rw [hfiles, hdirectory]

namespace Command

variable {α β ε : Type}

/-- The command fails, and leaves files and databases as they are. -/
def Stops (c : Command α) (w : World) : Prop := (∀ a, (c.run w).1 ≠ .ok a) ∧ w.Leaves (c.run w).2

/-- Two commands succeed exactly if the first does, and the second one in the world it leaves. -/
theorem run_bind_eq_ok_iff {c : Command α} {f : α → Command β} {w : World} {b : β} :
    ((c >>= f).run w).1 = .ok b ↔
      ∃ a, (c.run w).1 = .ok a ∧ ((f a).run (c.run w).2).1 = .ok b := by
  rw [run_bind]
  cases h : c.run w with
  | mk outcome w' =>
      cases outcome with
      | error error => exact ⟨nofun, fun ⟨_, ha, _⟩ => nomatch ha⟩
      | ok a =>
          constructor
          · exact fun hb => ⟨a, rfl, hb⟩
          · rintro ⟨a', ha, hb⟩
            cases ha
            exact hb

theorem stops_of_run_error {c : Command α} {w : World} {error : CommandError}
    (h : c.run w = (.error error, w)) : c.Stops w := by
  rw [Stops, h]
  exact ⟨nofun, .refl w⟩

/-- What stops after a command that leaves the world as it was stops with it. -/
theorem stops_bind_of_run {c : Command α} {f : α → Command β} {w : World} {a : α}
    (hc : c.run w = (.ok a, w)) (hf : (f a).Stops w) : (c >>= f).Stops w := by
  rw [Stops, run_bind, hc]
  exact hf

/-- What follows a command that stops is not done. -/
theorem Stops.bind {c : Command α} {w : World} (h : c.Stops w) (f : α → Command β) :
    (c >>= f).Stops w := by
  refine ⟨fun b hb => ?_, ?_⟩
  · obtain ⟨a, ha, -⟩ := run_bind_eq_ok_iff.mp hb
    exact h.1 a ha
  · rw [run_bind]
    cases hrun : c.run w with
    | mk outcome w' =>
        have hleaves := h.2
        rw [hrun] at hleaves
        cases outcome with
        | ok a => exact absurd (congrArg Prod.fst hrun) (h.1 a)
        | error error => exact hleaves

/-- A quiet command before one that stops makes no difference. -/
theorem IsQuiet.stops_bind {c : Command α} {f : α → Command β} {w : World} (hc : c.IsQuiet)
    (h : ∀ a, (c.run w).1 = .ok a → (f a).Stops (c.run w).2) : (c >>= f).Stops w := by
  have hleaves := hc.leaves w
  refine ⟨fun b hb => ?_, ?_⟩
  · obtain ⟨a, ha, hb⟩ := run_bind_eq_ok_iff.mp hb
    exact (h a ha).1 b hb
  · rw [run_bind]
    cases hrun : c.run w with
    | mk outcome w' =>
        rw [hrun] at hleaves h
        cases outcome with
        | ok a => exact hleaves.trans (h a rfl).2
        | error error => exact hleaves

theorem run_request_bind (r : Request) (f : r.Reply → Command β) (w : World) :
    (request r >>= f).run w = (f (w.reply r).1).run (w.reply r).2 := rfl

theorem run_ofExcept (f : ε → CommandError) (x : Except ε α) (w : World) :
    (ofExcept f x).run w = (x.mapError f, w) := by
  cases x <;> rfl

/-- A journal ends a command as it ends itself. -/
theorem run_ofJournal_fst (f : ε → CommandError) (j : Journal ε α) (w : World) :
    ((ofJournal f j).run w).1 = j.outcome.mapError f := by
  have hnotes : ∀ (entries : List Entry) (w : World),
      ((entries.forM fun e => request (.note e)).run w).1 = .ok () := by
    intro entries
    induction entries with
    | nil => exact fun _ => rfl
    | cons e entries ih => exact fun w => ih _
  unfold ofJournal
  rw [run_bind]
  have h := hnotes j.entries w
  cases hrun : (j.entries.forM fun e => request (.note e)).run w with
  | mk outcome w' =>
      rw [hrun] at h
      subst h
      cases j.outcome <;> rfl

end Command

/-! ### The stages of a task -/

namespace Invocation

variable {i : Invocation} {w : World} {s : Settings}

/-- The settings are those that hold in the world. -/
theorem run_settings (i : Invocation) (w : World) :
    i.settings.run w = ((i.settingsIn w).mapError .settings, w) := by
  unfold settings settingsIn
  dsimp only
  split
  · refine (Command.run_request_bind .workingDirectory _ w).trans ?_
    refine (Command.run_request_bind (.read _) _ w).trans ?_
    exact Command.run_ofExcept _ _ w
  · generalize Path.ofString (i.settingsFile.getD "") = path
    refine (Command.run_request_bind (.read _) _ w).trans ?_
    exact Command.run_ofExcept _ _ w

theorem run_target (i : Invocation) (s : Settings) (w : World) :
    (i.target s).run w = ((i.targetIn s w).mapError .target, w) := by
  unfold target targetIn
  refine (Command.run_request_bind (.lookUp _) _ w).trans ?_
  exact Command.run_ofExcept _ _ w

/-- What is done once the settings are known. -/
def work (i : Invocation) (s : Settings) : Command Unit :=
  match i.task with
  | .check schemaFile isStrict shows => Command.check s schemaFile isStrict shows
  | .generate schemaFile d output quotes => Command.generate s schemaFile d output quotes
  | .types schemaFile output => Command.types s schemaFile output
  | .introspect => do
    let t ← i.target s
    Command.introspect s t
  | .migrate schemaFile isDryRun skipsTypes => do
    let t ← i.target s
    Command.migrate s t schemaFile isDryRun skipsTypes

theorem run_perform_of_settled (h : i.settingsIn w = .ok s) :
    i.perform.run w = (i.work s).run w := by
  show (i.settings >>= i.work).run w = _
  rw [Command.run_bind, run_settings, h]
  rfl

theorem perform_stops_of_rejected {error : SettingsError} (h : i.settingsIn w = .error error) :
    i.perform.Stops w := by
  have hrun : i.settings.run w = (.error (.settings error), w) := by
    rw [run_settings, h]
    rfl
  exact (Command.stops_of_run_error hrun).bind i.work

end Invocation

namespace Command

/-- A file that is compiled compiles as the world says. -/
theorem compiled_of_compilePath {path : Path} {isStrict : Bool} {w : World} {schema : Schema}
    (h : ((compilePath path isStrict).run w).1 = .ok schema) :
    w.compiled path isStrict = .ok schema := by
  let print : Command Unit := printMarked ("Compiling [cyan]" ++ path.text ++ "[/cyan]...")
  have hread : (print.run w).2.read path = w.read path :=
    World.read_eq ((quiet_printMarkup _ _).leaves w).1 (print.run_keeps w).2.2 path
  obtain ⟨-, -, h⟩ := run_bind_eq_ok_iff.mp h
  obtain ⟨file, hfile, h⟩ := run_bind_eq_ok_iff.mp h
  obtain ⟨found, hfound, h⟩ := run_bind_eq_ok_iff.mp h
  have hsame : (print.run w).2.read path = file := Except.ok.inj hfile
  rw [run_ofExcept] at h
  rw [run_ofJournal_fst, ← hsame, hread] at hfound
  exact Except.bind_eq_ok_iff.mpr
    ⟨found, Except.mapError_eq_ok_iff.mp hfound, Except.mapError_eq_ok_iff.mp h⟩

/-- A file that does not compile stops what is to be done with its schema. -/
theorem stops_compilePath {path : Path} {isStrict : Bool} {w : World} {error : SourceError}
    (h : w.compiled path isStrict = .error error) : (compilePath path isStrict).Stops w := by
  refine ⟨fun schema hschema => ?_, (quiet_compilePath path isStrict).leaves w⟩
  have hcompiled := compiled_of_compilePath hschema
  rw [h] at hcompiled
  cases hcompiled

end Command

/-- A file that cannot be read does not compile. -/
theorem World.compiled_of_unreadable {w : World} {path : Path} {fault : FileFault}
    (h : w.read path = .error fault) (isStrict : Bool) :
    ∃ error, w.compiled path isStrict = .error error := by
  unfold compiled compileFile sourceText
  rw [h]
  dsimp only
  split
  · exact ⟨.file fault, rfl⟩
  · refine ⟨.rejected [], ?_⟩
    rw [Journal.outcome_bind, Journal.outcome_bind]
    rfl

namespace Invocation

variable {i : Invocation} {w : World} {s : Settings}

/-- What follows a file that does not compile is not done, whatever the task. -/
theorem work_stops_of_source {path : Path} {isStrict : Bool} {error : SourceError}
    (hsource : i.task.source? s = some (path, isStrict))
    (h : w.compiled path isStrict = .error error) : (i.work s).Stops w := by
  have hstops := Command.stops_compilePath h
  unfold work
  cases htask : i.task with
  | check _ _ _ | generate _ _ _ _ | types _ _ =>
      rw [htask, Task.source?, Option.some.injEq, Prod.mk.injEq] at hsource
      obtain ⟨rfl, rfl⟩ := hsource
      exact hstops.bind _
  | introspect =>
      rw [htask] at hsource
      cases hsource
  | migrate schemaFile isDryRun skipsTypes =>
      rw [htask, Task.source?, Option.some.injEq, Prod.mk.injEq] at hsource
      obtain ⟨rfl, rfl⟩ := hsource
      have hrun := run_target i s w
      cases htarget : i.targetIn s w with
      | error error =>
          rw [htarget] at hrun
          exact (Command.stops_of_run_error hrun).bind _
      | ok t =>
          rw [htarget] at hrun
          exact Command.stops_bind_of_run hrun (hstops.bind _)

/-- Where there is no database to work on, nothing is done. -/
theorem work_stops_of_target {error : TargetError} (huses : i.task.UsesDatabase)
    (h : i.targetIn s w = .error error) : (i.work s).Stops w := by
  have hrun := run_target i s w
  rw [h] at hrun
  have hstops := Command.stops_of_run_error hrun
  unfold work
  cases htask : i.task with
  | check _ _ _ | generate _ _ _ _ | types _ _ =>
      rw [htask] at huses
      exact huses.elim
  | introspect => exact hstops.bind _
  | migrate _ _ _ => exact hstops.bind _

/-- Nothing is written for a schema that there is no script for. -/
theorem work_stops_of_plan {schemaFile output : Option String} {d : Dialect} {quotes : Bool}
    {path : Path} {isStrict : Bool} {schema : Schema} {error : PlanError}
    (htask : i.task = .generate schemaFile d output quotes)
    (hsource : i.task.source? s = some (path, isStrict))
    (hcompiled : w.compiled path isStrict = .ok schema)
    (hplan : (planScript ⟨d, quotes || s.quotes⟩ schema none).outcome = .error error) :
    (i.work s).Stops w := by
  unfold work
  rw [htask, Task.source?, Option.some.injEq, Prod.mk.injEq] at hsource
  obtain ⟨rfl, rfl⟩ := hsource
  rw [htask]
  refine (Command.quiet_compilePath _ _).stops_bind fun found hfound => ?_
  have hsame := Command.compiled_of_compilePath hfound
  rw [hcompiled] at hsame
  cases hsame
  have hjournal : (Command.ofJournal .plan (planScript ⟨d, quotes || s.quotes⟩ schema none)).Stops
      ((compilePath (chosenFile schemaFile s.schemaFile) s.strict).run w).2 := by
    refine ⟨fun script hscript => ?_, (Command.quiet_ofJournal _ _).leaves _⟩
    rw [Command.run_ofJournal_fst, hplan] at hscript
    cases hscript
  exact hjournal.bind _

/-- What cannot be done stops. -/
theorem Fails.stops (h : i.Fails w) : i.perform.Stops w := by
  have hwork {s : Settings} (hs : i.settingsIn w = .ok s) (hw : (i.work s).Stops w) :
      i.perform.Stops w := by
    rw [Command.Stops, run_perform_of_settled hs]
    exact hw
  cases h with
  | settings rejected => exact perform_stops_of_rejected rejected
  | target settled uses unknown => exact hwork settled (work_stops_of_target uses unknown)
  | file settled source unreadable =>
      obtain ⟨error, herror⟩ := World.compiled_of_unreadable unreadable _
      exact hwork settled (work_stops_of_source source herror)
  | source settled source wrong => exact hwork settled (work_stops_of_source source wrong)
  | plan settled task source compiled unplanned =>
      exact hwork settled (work_stops_of_plan task source compiled unplanned)

/-- Nothing that is entered in the journal changes what cannot be done. -/
theorem Fails.noted (h : i.Fails w) (e : Entry) :
    i.Fails { w with entries := w.entries ++ [e] } := by
  cases h with
  | settings rejected => exact .settings rejected
  | target settled uses unknown => exact .target settled uses unknown
  | file settled source unreadable => exact .file settled source unreadable
  | source settled source wrong => exact .source settled source wrong
  | plan settled task source compiled unplanned => exact .plan settled task source compiled unplanned

end Invocation

/-! ### The whole program -/

namespace Command

/-- The answer to an error: it is reported, or left to the surroundings. -/
def answer (error : CommandError) : Command ExitStatus :=
  if error.isReported then do
    error.report
    pure .reported
  else .fail error

/-- A command, and the answer if it fails. -/
def answered (c : Command Unit) : Command ExitStatus :=
  (c >>= fun _ => pure .success).handle answer

theorem quiet_answer (error : CommandError) : (answer error).IsQuiet :=
  .ite ((quiet_report error).bind fun _ => makes_pure _) (.fail error)

/-- No error is answered with success. -/
theorem answer_ne_success (error : CommandError) (w : World) :
    ((answer error).run w).1 ≠ .ok .success := by
  intro h
  unfold answer at h
  split at h
  · obtain ⟨-, -, h⟩ := run_bind_eq_ok_iff.mp h
    cases h
  · cases h

/-- An answer adds nothing but what is quiet. -/
theorem Makes.answered {P : Request → Prop} (hP : ∀ r, r.IsQuiet → P r) {c : Command Unit}
    (h : c.Makes P) : c.answered.Makes P :=
  (h.bind fun _ => makes_pure _).handle fun error => (quiet_answer error).mono hP

/-- What stops is not answered with success. -/
theorem Stops.answered {c : Command Unit} {w : World} (h : c.Stops w) :
    (c.answered.run w).1 ≠ .ok .success ∧ w.Leaves (c.answered.run w).2 := by
  obtain ⟨hfails, hleaves⟩ := h.bind fun _ => (pure .success : Command ExitStatus)
  rw [Command.answered, run_handle]
  cases hrun : (c >>= fun _ => (pure .success : Command ExitStatus)).run w with
  | mk outcome w' =>
      rw [hrun] at hfails hleaves
      cases outcome with
      | ok status => exact absurd rfl (hfails status)
      | error error =>
          exact ⟨answer_ne_success error w', hleaves.trans ((quiet_answer error).leaves w')⟩

theorem answered_run_congr {c d : Command Unit} {w : World} (h : c.run w = d.run w) :
    c.answered.run w = d.answered.run w := by
  rw [answered, answered, run_handle, run_handle, run_bind, run_bind, h]

end Command

namespace Invocation

variable {i : Invocation} {w : World} {s : Settings}

/-- The world once the task is entered in the journal. -/
def noted (i : Invocation) (w : World) : World :=
  { w with entries := w.entries ++ [⟨.debug, s!"Running command: {i.task.name}"⟩] }

theorem run_respond (i : Invocation) (w : World) :
    i.respond.run w = i.perform.answered.run (i.noted w) := rfl

/-- Reading the settings is quiet. -/
theorem quiet_settings (i : Invocation) : i.settings.IsQuiet := by
  unfold settings
  dsimp only
  split
  · exact (Command.makes_request trivial).bind fun _ => (Command.makes_request trivial).bind
      fun _ => Command.makes_ofExcept _ _
  · exact (Command.makes_request trivial).bind fun _ => Command.makes_ofExcept _ _

theorem quiet_target (i : Invocation) (s : Settings) : (i.target s).IsQuiet :=
  (Command.makes_request trivial).bind fun _ => Command.makes_ofExcept _ _

/-- The program makes no request that its task does not make, but for quiet ones. -/
theorem respond_makes {P : Request → Prop} (hP : ∀ r, r.IsQuiet → P r)
    (h : ∀ s, (i.work s).Makes P) : i.respond.Makes P :=
  (Command.makes_request (hP (.note _) trivial)).bind fun _ =>
    ((i.quiet_settings.mono hP).bind h).answered hP

end Invocation

/-- Checking is quiet. -/
theorem Invocation.quiet_respond_check {i : Invocation} {schemaFile : Option String}
    {isStrict shows : Bool} (h : i.task = .check schemaFile isStrict shows) :
    i.respond.IsQuiet := by
  refine i.respond_makes (fun _ hr => hr) fun s => ?_
  unfold work
  rw [h]
  exact Command.quiet_check s schemaFile isStrict shows

/-- Introspecting touches no file. -/
theorem Invocation.respond_introspect_keepsFiles {i : Invocation} (h : i.task = .introspect) :
    i.respond.Makes Request.KeepsFiles := by
  refine i.respond_makes (fun _ => Request.IsQuiet.keepsFiles) fun s => ?_
  unfold work
  rw [h]
  exact ((i.quiet_target s).mono fun _ => Request.IsQuiet.keepsFiles).bind
    (Command.introspect_keepsFiles s)

/-- A migration that is only shown may write the types where the settings have them. -/
theorem Invocation.shows_respond {i : Invocation} {w : World} {schemaFile : Option String}
    {skipsTypes : Bool} {s : Settings} (h : i.task = .migrate schemaFile true skipsTypes)
    (hs : i.settingsIn w = .ok s) :
    w.Shows (Command.typesPath s skipsTypes) (i.respond.run w).2 := by
  have hwork : (i.work s).Makes (Request.Shows (Command.typesPath s skipsTypes)) := by
    unfold work
    rw [h]
    exact ((i.quiet_target s).mono fun _ => .quiet).bind fun t =>
      Command.migrate_shows s t schemaFile skipsTypes
  have hrun : i.respond.run w = (i.work s).answered.run (i.noted w) :=
    (i.run_respond w).trans (Command.answered_run_congr (run_perform_of_settled hs))
  have hnoted : w.Shows (Command.typesPath s skipsTypes) (i.noted w) := .of_leaves rfl ⟨rfl, rfl⟩
  rw [hrun]
  exact hnoted.trans ((hwork.answered fun _ => .quiet).run .refl .trans
    (fun w _ hr => hr.reply w) (i.noted w))

/-- **What can be counted on.**  When what is asked for cannot be done, the program does not end in
success, and files and databases are as they were.  Checking leaves them as they were in any case;
introspecting leaves the files; and a migration that is only shown changes no file but that of the
types, if any, and does nothing with the database but read its catalog. -/
theorem respond_effects {arguments : List String} {i : Invocation}
    (h : Invocation.ofArguments arguments = .ok i) (w : World) :
    let r := (respond arguments).run w
    (i.Fails w → r.1 ≠ .ok .success ∧ r.2.files = w.files ∧ r.2.events = w.events) ∧
      (∀ schemaFile isStrict shows, i.task = .check schemaFile isStrict shows →
        r.2.files = w.files ∧ r.2.events = w.events) ∧
      (i.task = .introspect → r.2.files = w.files) ∧
      ∀ schemaFile skipsTypes s, i.task = .migrate schemaFile true skipsTypes →
        i.settingsIn w = .ok s → w.Shows (Command.typesPath s skipsTypes) r.2 := by
  have hrespond : respond arguments = i.respond := by
    unfold respond
    rw [h]
  rw [hrespond]
  refine ⟨fun hfails => ?_, fun schemaFile isStrict shows htask => ?_, fun htask => ?_,
    fun schemaFile skipsTypes s htask hs => ?_⟩
  · rw [i.run_respond]
    exact (hfails.noted _).stops.answered
  · exact (Invocation.quiet_respond_check htask).leaves w
  · exact (Invocation.respond_introspect_keepsFiles htask).files_eq w
  · exact Invocation.shows_respond htask hs

/-- A server that knows of no table. -/
def emptyServer : Server :=
  { accepts := fun _ => .ok ()
    probes := fun _ => .ok []
    tables := fun _ => .ok []
    columns := fun _ => .ok []
    constraints := fun _ => .ok [] }

/-- A schema on the disk, and no address in the environment. -/
def addresslessWorld : World :=
  { server := emptyServer
    directory := Path.ofString "/home"
    files := ⟨[(["home"], .directory),
      (["home", "schema.dbs"],
        .file "model user \x7b\n  id int @primary_key\n\x7d\n".toUTF8.toList)]⟩ }

/-- A migration that is only shown. -/
def shownMigration : Invocation := ⟨none, some "APP_", false, .migrate none true false⟩

/-- Without an address, nothing is left behind by a migration that would have written the types. -/
theorem respond_addressless :
    Invocation.ofArguments ["--env-prefix", "APP_", "migrate", "--dry-run"] = .ok shownMigration ∧
      shownMigration.Fails addresslessWorld ∧
      ((respond ["--env-prefix", "APP_", "migrate", "--dry-run"]).run addresslessWorld).1 ≠
        .ok .success ∧
      addresslessWorld.Leaves
        ((respond ["--env-prefix", "APP_", "migrate", "--dry-run"]).run addresslessWorld).2 ∧
      shownMigration.settingsIn addresslessWorld = .ok {} ∧
      addresslessWorld.Shows (Command.typesPath {} false)
        ((respond ["--env-prefix", "APP_", "migrate", "--dry-run"]).run addresslessWorld).2 := by
  have h : Invocation.ofArguments ["--env-prefix", "APP_", "migrate", "--dry-run"] =
      .ok shownMigration := by decide +kernel
  have hsettings : shownMigration.settingsIn addresslessWorld = .ok {} := rfl
  have htarget : shownMigration.targetIn {} addresslessWorld =
      .error (.unset "APP_DATABASE_URL") := by decide +kernel
  have hfails : shownMigration.Fails addresslessWorld := .target hsettings trivial htarget
  obtain ⟨hstops, -, -, hshows⟩ := respond_effects h addresslessWorld
  exact ⟨h, hfails, (hstops hfails).1, (hstops hfails).2, hsettings,
    hshows none false {} rfl hsettings⟩

end Schemata
