import Schemata.Proofs.Plan.Failing
import Schemata.Proofs.Plan.References

/-!
# Proofs — look-ups while planning

Planning looks things up that may not be there: a model by its name, what a table needs, a table
in the list of those that are left, how a dialect has a key count up, the name of a foreign key.
In `Schemata.Plan` these have an answer in any case.  Here planning is *strict*: a look-up that
finds nothing ends it, with a failure of its own (`Plan.Failure`).  The tables of types and of
generated defaults have an entry for every dialect, and stay the functions that they are.

Strict planning is planning (`Strict.plan_eq`): each part of it, for what it is asked for on the
way, ends like its part of `Schemata.Plan`, with the same entries, so no look-up ever fails.
What each of them rests on is small:

* `Strict.place_eq` — a table that is left was among the tables of the sort.
* `Strict.createTables_eq` — a sorted name is one of the names that were sorted.
* `Strict.definition_eq`, `Strict.restatement_eq` — only the dialect that has a type of its own for
  counting keys has no suffix for them, and it never gets that far.
* `Strict.foreignKey_eq` — a field that leads somewhere has a relation with a key.

Together with what is known of failing plans, this says when a script is planned, and what it
fails with (`planScript_fails_exactly`).
-/

namespace Schemata

namespace Plan

/-- How strict planning fails: with an error of planning, or with nothing found. -/
inductive Failure where
  | rejected (error : PlanError)
  | noModel (name : String)
  | noNeeds (table : String)
  | notLeft (table : String)
  | noSuffix (dialect : Dialect)
  | noKey (field : String)
  deriving DecidableEq, Repr

namespace Strict

/-- What was looked up, if it was found. -/
def found {α : Type} (failure : Failure) : Option α → Journal Failure α
  | some a => pure a
  | none => .fail failure

/-- Planning where nothing is looked up. -/
def lift {α : Type} (x : Planning α) : Journal Failure α := x.mapError .rejected

/-! ### Strict order -/

/-- The list without the first `table`, if it is there. -/
def remove? (table : String) (tables : List String) : Option (List String) :=
  if table ∈ tables then some (tables.erase table) else none

/-- To remove a table leaves fewer of them. -/
theorem length_lt_of_remove? {table : String} {tables rest : List String}
    (h : remove? table tables = some rest) : rest.length < tables.length := by
  unfold remove? at h
  split at h
  next hmem =>
      cases h
      rw [List.length_erase_of_mem hmem]
      exact Nat.sub_lt (List.length_pos_of_mem hmem) Nat.one_pos
  next => cases h

/-- A table and what it needs. -/
def row (relevant : Dependencies) (table : String) : Journal Failure (String × List String) := do
  let needs ← found (.noNeeds table) (relevant.lookup table)
  pure (table, needs)

/-- As `Dependencies.place`. -/
def place (relevant : Dependencies) (placed remaining : List String) :
    Journal Failure (List String × List String) := do
  let rows ← remaining.mapM (row relevant)
  match rows.find? fun r => r.2.all placed.contains with
  | none => pure ([], remaining)
  | some (t, _) =>
    match h : remove? t remaining with
    | none => .fail (.notLeft t)
    | some rest => do
      have := length_lt_of_remove? h
      let (order, stuck) ← place relevant (t :: placed) rest
      pure (t :: order, stuck)
termination_by remaining.length

/-- As `Dependencies.sorted`. -/
def sorted (deps : Dependencies) (tables : List String) : Journal Failure (List String) := do
  let (order, stuck) ← place (tables.map fun t => (t, deps.within tables t)) [] tables
  if !stuck.isEmpty then
    Journal.note .warning
      ("Foreign-key cycle between tables " ++ ", ".intercalate stuck ++
        "; creating them in declaration order")
  pure (order ++ stuck)

/-! ### Strict columns and tables -/

/-- The suffixes of keys that count up, for the dialects that have one. -/
def identitySuffixes : List (Dialect × String) :=
  [(.mysql, " AUTO_INCREMENT"), (.sqlite, " AUTOINCREMENT"), (.generic, "")]

/-- The suffix of a key that counts up; nothing for another column. -/
def identity (d : Dialect) (f : Field) : Journal Failure String :=
  if f.isIdentity then found (.noSuffix d) (identitySuffixes.lookup d) else pure ""

/-- As `Field.definition`. -/
def definition (d : Dialect) (f : Field) (model : String) : Journal Failure ColumnDefinition := do
  let type ← lift (Journal.ofExcept (f.columnType d))
  if f.isIdentity && d = .postgres then
    pure { name := f.name, type := "SERIAL", isKey := true }
  else
    let identity ← identity d f
    let default ← lift (f.defaultExpression d model)
    pure
      { name := f.name
        type
        isKey := f.isPrimaryKey
        identity
        isUnique := f.isUnique
        default
        isNotNull := f.isNotNull }

/-- As `Field.restatement`. -/
def restatement (d : Dialect) (f : Field) (model : String) : Journal Failure ColumnDefinition := do
  let type ← lift (Journal.ofExcept (f.columnType d))
  let identity ← identity d f
  let default ← lift (f.defaultExpression d model)
  pure { name := f.name, type, identity, default, isNotNull := f.isNotNull }

/-- As `Plan.foreignKey?`, with the name of the key as it is written. -/
def foreignKey (f : Field) : Journal Failure (Option TableElement) :=
  match f.foreignKeyTarget? with
  | none => pure none
  | some target => do
    let key ← found (.noKey f.name) (f.relation.bind Relation.foreignKey)
    pure (some (.foreignKey key target "id" false))

/-- As `Plan.createTable`. -/
def createTable (d : Dialect) (m : Model) : Journal Failure Statement := do
  let columns ← m.columns.mapM fun f => definition d f m.name
  let keys ← m.fields.mapM foreignKey
  pure (.createTable m.name
    (columns.map .column ++ m.uniques.map .unique ++ keys.filterMap id))

/-- As `Plan.createTables`. -/
def createTables (d : Dialect) (s : Schema) (names : List String) :
    Journal Failure (List Statement) := do
  let order ← sorted s.dependencies names
  order.mapM fun name => do
    let m ← found (.noModel name) (s.model? name)
    createTable d m

/-- As `Plan.createAll`. -/
def createAll (d : Dialect) (s : Schema) : Journal Failure (List Statement) := do
  let tables ← createTables d s s.modelNames
  let joins ← s.joinTables.mapM fun j => lift (createJoinTable d s j)
  pure (tables ++ joins)

/-! ### Strict changes -/

/-- As `Plan.modifyColumn`. -/
def modifyColumn (d : Dialect) (table : String) (new : Field) : Journal Failure Statement := do
  let definition ← restatement d new table
  pure (.modifyColumn table definition)

/-- As `Plan.alterInPlace`. -/
def alterInPlace (d : Dialect) (table : String) (old new : Field) :
    Journal Failure (List Statement) := do
  let oldType ← lift (Journal.ofExcept (old.columnType d))
  let newType ← lift (Journal.ofExcept (new.columnType d))
  let nullability := alterNullability d table old new
  let restated ←
    if d = .mysql && (oldType != newType ||
        (old.isNotNull != new.isNotNull && !weakensKey old new)) then do
      let statement ← modifyColumn d table new
      pure [statement]
    else pure []
  let default ← lift (alterDefault d table old new)
  let type :=
    if oldType != newType && d != .mysql then
      [Statement.setType table new.name newType
        (d = .postgres && new.typeName == Scalar.json.name)]
    else []
  pure (nullability ++ restated ++ default ++ type ++
    alterUniqueness (.addUnique table new.name) old new)

/-- As `Plan.alterColumn`. -/
def alterColumn (d : Dialect) (table : String) (old new : Field) :
    Journal Failure (List Statement) :=
  if d = .sqlite then lift (alterRebuilding d table old new) else alterInPlace d table old new

/-- As `Plan.reachColumn`. -/
def reachColumn (d : Dialect) (before after : Model) (f : Field) :
    Journal Failure (List Statement) :=
  match columnNamed before f.name with
  | some old => alterColumn d after.name old f
  | none => do
    let definition ← definition d f after.name
    pure [.addColumn after.name definition]

/-- As `Plan.alterTable`. -/
def alterTable (d : Dialect) (before after : Model) : Journal Failure (List Statement) := do
  let reached ← after.columns.mapM (reachColumn d before after)
  let dropped := before.columns.filter fun f => (columnNamed after f.name).isNone
  pure (reached.flatten ++ dropped.map fun f => Statement.dropColumn after.name f.name)

/-- As `Plan.diff`. -/
def diff (d : Dialect) (desired previous : Schema) : Journal Failure (List Statement) := do
  let created ← createTables d desired
    (desired.modelNames.filter fun name => !previous.modelNames.contains name)
  let altered ← desired.models.mapM fun m =>
    match previous.model? m.name with
    | some before => alterTable d before m
    | none => pure []
  let order ← sorted previous.dependencies
    (previous.modelNames.filter fun name => !desired.modelNames.contains name)
  Journal.notes (missingJoinTables desired previous)
  pure (created ++ altered.flatten ++ order.reverse.map .dropTable)

/-- As `plan`. -/
def plan (d : Dialect) (desired : Schema) (previous : Option Schema) :
    Journal Failure (List Statement) :=
  match previous with
  | none => createAll d desired
  | some previous => diff d desired previous

/-- As `planScript`. -/
def script (style : Style) (desired : Schema) (previous : Option Schema) :
    Journal Failure Script :=
  Script.ofStatements style <$> plan style.dialect desired previous

/-! ### What is looked up is found -/

section

variable {α β : Type}

@[simp] theorem found_some (failure : Failure) (a : α) : found failure (some a) = pure a := rfl

@[simp] theorem lift_pure (a : α) : lift (pure a) = pure a := rfl

@[simp] theorem lift_bind (x : Planning α) (f : α → Planning β) :
    lift (x >>= f) = lift x >>= fun a => lift (f a) := Journal.mapError_bind _ x f

@[simp] theorem lift_mapM (f : α → Planning β) (xs : List α) :
    lift (xs.mapM f) = xs.mapM fun x => lift (f x) := Journal.mapError_mapM _ f xs

@[simp] theorem lift_map (f : α → β) (x : Planning α) : lift (f <$> x) = f <$> lift x :=
  Journal.mapError_map _ f x

end

/-! #### The order of tables -/

/-- The row of a listed table is found. -/
theorem row_eq {deps : Dependencies} {tables : List String} {t : String} (h : t ∈ tables) :
    row (tables.map fun u => (u, deps.within tables u)) t = pure (t, deps.within tables t) := by
  unfold row
  rw [lookup_map_self, if_pos h, found_some, pure_bind]

theorem rows_eq {deps : Dependencies} {tables remaining : List String}
    (h : ∀ t ∈ remaining, t ∈ tables) :
    remaining.mapM (row (tables.map fun u => (u, deps.within tables u))) =
      pure (remaining.map fun t => (t, deps.within tables t)) := by
  rw [Journal.mapM_congr fun t ht => row_eq (h t ht), List.mapM_pure]

theorem remove?_eq {t : String} {tables : List String} (h : t ∈ tables) :
    remove? t tables = some (tables.erase t) := if_pos h

/-- The tables that are left were among those of the sort. -/
theorem place_eq {deps : Dependencies} {tables placed remaining : List String}
    (h : ∀ t ∈ remaining, t ∈ tables) :
    place (tables.map fun u => (u, deps.within tables u)) placed remaining =
      pure (Dependencies.place (deps.within tables) placed remaining) := by
  induction placed, remaining using Dependencies.place.induct (deps.within tables) with
  | case1 placed remaining hnone =>
      rw [Dependencies.place_of_stuck hnone, place, rows_eq h, pure_bind, List.find?_map,
        Function.comp_def]
      simp only [hnone, Option.map_none]
  | case2 placed remaining t hready _ _ _ _ ih =>
      have hmem := List.mem_of_find?_eq_some hready
      rw [Dependencies.place_of_ready hready, place, rows_eq h, pure_bind, List.find?_map,
        Function.comp_def]
      simp only [hready, Option.map_some]
      split
      next hnone => rw [remove?_eq hmem] at hnone; cases hnone
      next rest hrest =>
          rw [remove?_eq hmem] at hrest
          cases hrest
          rw [ih fun u hu => h u (List.mem_of_mem_erase hu), pure_bind]

/-- No look-up fails when tables are sorted. -/
theorem sorted_eq (deps : Dependencies) (tables : List String) :
    sorted deps tables = lift (deps.sorted tables) := by
  unfold sorted Dependencies.sorted Dependencies.sort
  rw [place_eq fun t ht => ht, pure_bind]
  obtain ⟨order, stuck⟩ := Dependencies.place (deps.within tables) [] tables
  cases stuck <;> rfl

/-! #### Columns and tables -/

/-- Only one dialect has no suffix, and no column of it comes so far. -/
theorem identity_eq {d : Dialect} {f : Field} (h : ¬ (f.isIdentity && d = .postgres)) :
    identity d f = pure (if f.isIdentity then d.identitySuffix else "") := by
  unfold identity
  cases hf : f.isIdentity with
  | false => rfl
  | true =>
      cases d with
      | postgres => exact absurd (by rw [hf]; rfl) h
      | mysql | sqlite | generic => rfl

/-- No look-up fails when a column is declared. -/
theorem definition_eq (d : Dialect) (f : Field) (model : String) :
    definition d f model = lift (f.definition d model) := by
  unfold definition Field.definition
  rw [lift_bind]
  refine congrArg _ (funext fun type => ?_)
  split
  next => rfl
  next h => rw [identity_eq h, pure_bind, lift_bind]; rfl

/-- No look-up fails when a column is restated, which only one dialect does. -/
theorem restatement_eq (f : Field) (model : String) :
    restatement .mysql f model = lift (f.restatement .mysql model) := by
  have h : ¬ (f.isIdentity && Dialect.mysql = .postgres) := by simp
  unfold restatement Field.restatement
  rw [identity_eq h, lift_bind]
  refine congrArg _ (funext fun type => ?_)
  rw [pure_bind, lift_bind]
  rfl

/-- A field that leads somewhere has a relation with a key. -/
theorem foreignKey_eq (f : Field) : foreignKey f = pure (foreignKey? f) := by
  unfold foreignKey foreignKey?
  cases htarget : f.foreignKeyTarget? with
  | none => rfl
  | some target =>
      obtain ⟨r, key, hr, -, hkey, -, -⟩ := Field.foreignKeyTarget?_eq_some_iff.mp htarget
      have hname : r.foreignKey = some key := (Option.filter_eq_some_iff.mp hkey).1
      rw [hr, Option.bind_some, Option.bind_some, hkey, hname]
      rfl

/-- No look-up fails when a table is created. -/
theorem createTable_eq (d : Dialect) (m : Model) :
    createTable d m = lift (Plan.createTable d m) := by
  have hkeys : m.fields.mapM foreignKey = pure (m.fields.map foreignKey?) := by
    rw [Journal.mapM_congr fun f _ => foreignKey_eq f, List.mapM_pure]
  unfold createTable Plan.createTable
  rw [lift_bind, lift_mapM, Journal.mapM_congr fun f _ => definition_eq d f m.name]
  refine congrArg _ (funext fun columns => ?_)
  rw [hkeys, pure_bind, List.filterMap_map, Function.id_comp]
  rfl

/-- Every name of a model is found. -/
theorem createEach_eq {d : Dialect} {s : Schema} {names : List String}
    (h : ∀ name ∈ names, name ∈ s.modelNames) :
    (names.mapM fun name => do
      let m ← found (.noModel name) (s.model? name)
      createTable d m) = lift ((names.filterMap s.model?).mapM (Plan.createTable d)) := by
  induction names with
  | nil => rfl
  | cons name names ih =>
      obtain ⟨hname, hnames⟩ := List.forall_mem_cons.mp h
      obtain ⟨m, hm⟩ := Schema.exists_model? hname
      rw [List.mapM_cons, ih hnames, List.filterMap_cons_some hm, List.mapM_cons, hm]
      simp only [found_some, pure_bind, createTable_eq, lift_bind, lift_pure]

/-- A sorted name is one of the names that were sorted. -/
theorem createTables_eq {d : Dialect} {s : Schema} {names : List String}
    (h : ∀ name ∈ names, name ∈ s.modelNames) :
    createTables d s names = lift (Plan.createTables d s names) := by
  unfold createTables Plan.createTables
  rw [lift_bind, sorted_eq]
  refine Journal.bind_congr fun order horder => createEach_eq fun name hname => ?_
  rw [lift, Journal.outcome_mapError, Except.mapError_eq_ok_iff] at horder
  exact h name ((Dependencies.sorted_perm horder).mem_iff.mp hname)

/-- No look-up fails in a fresh script. -/
theorem createAll_eq (d : Dialect) (s : Schema) : createAll d s = lift (Plan.createAll d s) := by
  unfold createAll Plan.createAll
  rw [createTables_eq fun _ h => h]
  simp only [lift_bind, lift_mapM, lift_pure]

/-! #### Changes -/

/-- No look-up fails when a column is modified. -/
theorem modifyColumn_eq (table : String) (new : Field) :
    modifyColumn .mysql table new = lift (Plan.modifyColumn .mysql table new) := by
  unfold modifyColumn Plan.modifyColumn
  rw [restatement_eq, lift_bind]
  rfl

/-- No look-up fails when a column is altered in place. -/
theorem alterInPlace_eq (d : Dialect) (table : String) (old new : Field) :
    alterInPlace d table old new = lift (Plan.alterInPlace d table old new) := by
  unfold alterInPlace Plan.alterInPlace
  rw [lift_bind]
  refine congrArg _ (funext fun oldType => ?_)
  rw [lift_bind]
  refine congrArg _ (funext fun newType => ?_)
  dsimp only
  split
  next h =>
      -- a column is restated in one dialect only
      obtain rfl : d = .mysql := of_decide_eq_true (Bool.and_eq_true_iff.mp h).1
      simp only [modifyColumn_eq, lift_bind, lift_pure]
  next => simp only [lift_bind, lift_pure]

theorem alterColumn_eq (d : Dialect) (table : String) (old new : Field) :
    alterColumn d table old new = lift (Plan.alterColumn d table old new) := by
  unfold alterColumn Plan.alterColumn
  rw [alterInPlace_eq]
  split <;> rfl

/-- No look-up fails when a wanted column is reached. -/
theorem reachColumn_eq (d : Dialect) (before after : Model) (f : Field) :
    reachColumn d before after f = lift (Plan.reachColumn d before after f) := by
  unfold reachColumn Plan.reachColumn
  cases columnNamed before f.name with
  | some old => exact alterColumn_eq d after.name old f
  | none => rw [definition_eq, lift_bind]; rfl

theorem alterTable_eq (d : Dialect) (before after : Model) :
    alterTable d before after = lift (Plan.alterTable d before after) := by
  unfold alterTable Plan.alterTable
  rw [lift_bind, lift_mapM, Journal.mapM_congr fun f _ => reachColumn_eq d before after f]
  rfl

/-- No look-up fails between two schemas. -/
theorem diff_eq (d : Dialect) (desired previous : Schema) :
    diff d desired previous = lift (Plan.diff d desired previous) := by
  unfold diff Plan.diff
  rw [createTables_eq fun _ h => (List.mem_filter.mp h).1, lift_bind]
  refine congrArg _ (funext fun created => ?_)
  have haltered : ∀ m ∈ desired.models,
      (match previous.model? m.name with
        | some before => alterTable d before m
        | none => pure []) =
      lift (match previous.model? m.name with
        | some before => Plan.alterTable d before m
        | none => pure []) := fun m _ => by
    cases previous.model? m.name with
    | some before => exact alterTable_eq d before m
    | none => rfl
  rw [lift_bind, lift_mapM, Journal.mapM_congr haltered]
  refine congrArg _ (funext fun altered => ?_)
  rw [lift_bind, sorted_eq]
  rfl

/-- **Strict planning is planning**: nothing that is looked up is missing, whatever is wanted and
whatever is deployed. -/
theorem plan_eq (d : Dialect) (desired : Schema) (previous : Option Schema) :
    plan d desired previous = lift (Schemata.plan d desired previous) := by
  cases previous with
  | none => exact createAll_eq d desired
  | some previous => exact diff_eq d desired previous

/-- Strict planning of a script is planning of it. -/
theorem script_eq (style : Style) (desired : Schema) (previous : Option Schema) :
    script style desired previous = lift (planScript style desired previous) := by
  unfold script planScript
  rw [plan_eq, lift_map]

end Strict

end Plan

/-- **When a script cannot be planned.**  With nothing deployed, exactly if a column has a literal
for a default that is not one for its type.  Whatever is deployed, and whatever literals are there,
the error names such a column of the wanted schema, and no look-up on the way comes back without
anything. -/
theorem planScript_fails_exactly (style : Style) {s : Schema} (hnames : s.modelNames.Nodup) :
    ((∃ e, (planScript style s none).outcome = .error e) ↔
      ∃ m ∈ s.models, ∃ f ∈ m.fields, ∃ t v, f.IllTyped t v) ∧
    (∀ previous e, (planScript style s previous).outcome = .error e → s.Blames e) ∧
    ∀ previous, Plan.Strict.script style s previous =
      (planScript style s previous).mapError .rejected := by
  refine ⟨?_, fun previous e he => ?_, Plan.Strict.script_eq style s⟩
  · simp only [planScript, Journal.map_error_iff]
    exact Plan.createAll_fails_iff hnames
  · exact plan_failsWith style.dialect s previous e (Journal.map_error_iff.mp he)

/-- A tally that starts from a text. -/
def tallies : Schema :=
  ⟨[{ name := "tally"
      fields :=
        [{ name := "id", typeName := "int", isPrimaryKey := true
           default := some (.call .autoincrement) },
         { name := "count", typeName := "int", default := some (.literal (.text "many")) }] }]⟩

/-- **The script of tallies cannot be planned**: its default is a text, and nothing else goes wrong.
-/
theorem tallies_fail :
    (∃ e, (planScript ⟨.postgres, true⟩ tallies none).outcome = .error e) ∧
      (∀ previous e, (planScript ⟨.postgres, true⟩ tallies previous).outcome = .error e →
        e = .illTyped (.text "many") "int" "tally" "count") ∧
      ∀ previous, Plan.Strict.script ⟨.postgres, true⟩ tallies previous =
        (planScript ⟨.postgres, true⟩ tallies previous).mapError .rejected := by
  obtain ⟨hfresh, herror, hfound⟩ :=
    @planScript_fails_exactly ⟨.postgres, true⟩ tallies (by decide)
  have hcount : ({ name := "count", typeName := "int"
                   default := some (.literal (.text "many")) } : Field).IllTyped .int (.text "many") :=
    ⟨rfl, rfl, nofun⟩
  refine ⟨hfresh.mpr ⟨_, List.mem_cons_self, _, List.mem_cons_of_mem _ List.mem_cons_self, _, _,
    hcount⟩, fun previous e he => ?_, hfound⟩
  cases herror previous e he with
  | column hm hf h =>
      cases List.mem_singleton.mp hm
      rcases List.mem_cons.mp hf with rfl | hf
      · cases h.default
      · cases List.mem_singleton.mp hf
        cases h.type
        cases h.default
        rfl

end Schemata
