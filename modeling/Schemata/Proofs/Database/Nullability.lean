import Schemata.Proofs.Database
import Schemata.Proofs.Plan.Statements

/-!
# Proofs — databases — columns that hold no null

Which statements can make a column hold nulls that held none (`Statement.Frees`): those that drop
it or its table, those that say so, and those that restate the column and leave it out.  That list
is exact: a statement keeps what is there free of nulls just if it is not on it
(`Statement.keepsNotNull_iff`).

A kept column that was a key, and is to hold nulls from now on, goes on holding none, and the script
says so in a remark.  No statement about it ends up on the list but one: where MySQL restates the
column for its new type, it restates it without the mark (`Plan.formerKey_keepsNotNull_iff`).
-/

namespace Schemata

/-- The column is there, and holds no null. -/
def Database.ForbidsNull (db : Database) (table column : String) : Prop :=
  ∃ t c, db table = some t ∧ t column = some c ∧ c.isNotNull = true

namespace Store

variable {α : Type} {s s' : Store α} {key : String}

theorem add_eq_some_iff {x : α} :
    s.add key x = some s' ↔ s key = none ∧ s' = Function.update s key (some x) := by
  cases h : s key <;> simp [add, h, eq_comm]

theorem remove_eq_some_iff :
    s.remove key = some s' ↔ (∃ x, s key = some x) ∧ s' = Function.update s key none := by
  cases h : s key <;> simp [remove, h, eq_comm]

theorem alter_eq_some_iff {f : α → Option α} :
    s.alter key f = some s' ↔
      ∃ x y, s key = some x ∧ f x = some y ∧ s' = Function.update s key (some y) := by
  simp only [alter, Option.bind_eq_some_iff, Option.map_eq_some_iff]
  constructor
  · rintro ⟨x, hx, y, hy, rfl⟩
    exact ⟨x, y, hx, hy, rfl⟩
  · rintro ⟨x, y, hx, hy, rfl⟩
    exact ⟨x, hx, y, hy, rfl⟩

end Store

namespace Database

variable {db db' : Database} {table column other : String}

theorem ForbidsNull.of_eq (h : db.ForbidsNull table column) (heq : db' table = db table) :
    db'.ForbidsNull table column := by
  obtain ⟨t, c, ht, hc⟩ := h
  exact ⟨t, c, heq.trans ht, hc⟩

/-- A change of one table keeps the column if the table keeps it. -/
theorem ForbidsNull.alter {f : TableState → Option TableState} (h : db.ForbidsNull table column)
    (hrun : db.alter other f = some db')
    (hf : other = table → ∀ t t', f t = some t' → ∀ c, t column = some c → c.isNotNull = true →
      ∃ c', t' column = some c' ∧ c'.isNotNull = true) : db'.ForbidsNull table column := by
  obtain ⟨t, t', ht, hft, rfl⟩ := Store.alter_eq_some_iff.mp hrun
  obtain ⟨u, c, hu, hc, hnull⟩ := h
  by_cases he : other = table
  · subst he
    rw [ht, Option.some.injEq] at hu
    subst hu
    obtain ⟨c', hc', hnull'⟩ := hf rfl t t' hft c hc hnull
    exact ⟨t', c', Function.update_self .., hc', hnull'⟩
  · exact ⟨u, c, by rw [Function.update_of_ne (Ne.symm he), hu], hc, hnull⟩

/-- A change of one column keeps another, and the same one if it still holds no null. -/
theorem ForbidsNull.alterColumn {name : String} {g : ColumnState → ColumnState}
    (h : db.ForbidsNull table column)
    (hrun : (db.alter other fun t => t.alter name fun c => some (g c)) = some db')
    (hg : other = table → name = column → ∀ c, c.isNotNull = true → (g c).isNotNull = true) :
    db'.ForbidsNull table column := by
  refine h.alter hrun fun hother t t' ht c hc hnull => ?_
  obtain ⟨x, y, hx, hy, rfl⟩ := Store.alter_eq_some_iff.mp ht
  cases hy
  by_cases he : name = column
  · subst he
    rw [hx, Option.some.injEq] at hc
    subst hc
    exact ⟨g x, Function.update_self .., hg hother rfl x hnull⟩
  · exact ⟨c, by rw [Function.update_of_ne (Ne.symm he), hc], hnull⟩

end Database

namespace Statement

/-- Wherever the statement is run, the column goes on holding no null if it held none. -/
def KeepsNotNull (st : Statement) (table column : String) : Prop :=
  ∀ db db', st.run db = some db' → db.ForbidsNull table column → db'.ForbidsNull table column

/-- The statement drops the column, or lets it hold nulls. -/
def Frees (table column : String) : Statement → Prop
  | .modifyColumn t c => t = table ∧ c.name = column ∧ (c.isKey || c.isNotNull) = false
  | .setNotNull t c notNull => t = table ∧ c = column ∧ notNull = false
  | .dropColumn t c => t = table ∧ c = column
  | .dropTable t => t = table
  | _ => False

variable {st : Statement} {table column : String}

/-- What does not free a column keeps it from null. -/
theorem keepsNotNull_of_not_frees (h : ¬ st.Frees table column) :
    st.KeepsNotNull table column := by
  intro db db' hrun hdb
  cases st with
  | createTable t elements =>
      simp only [run, Option.ite_none_right_eq_some, Store.add_eq_some_iff] at hrun
      obtain ⟨-, hnone, rfl⟩ := hrun
      refine hdb.of_eq (Function.update_of_ne (fun he => ?_) _ _)
      obtain ⟨u, -, hu, -⟩ := hdb
      rw [← he, hu] at hnone
      cases hnone
  | dropTable t =>
      obtain ⟨-, rfl⟩ := Store.remove_eq_some_iff.mp hrun
      exact hdb.of_eq (Function.update_of_ne (fun he => h he.symm) _ _)
  | addColumn t c =>
      refine hdb.alter hrun fun _ s s' hs x hx hnull => ?_
      obtain ⟨hnone, rfl⟩ := Store.add_eq_some_iff.mp hs
      refine ⟨x, ?_, hnull⟩
      rw [Function.update_of_ne (fun he => ?_), hx]
      rw [← he, hx] at hnone
      cases hnone
  | dropColumn t c =>
      refine hdb.alter hrun fun ht s s' hs x hx hnull => ?_
      obtain ⟨-, rfl⟩ := Store.remove_eq_some_iff.mp hs
      exact ⟨x, by rw [Function.update_of_ne (fun he => h ⟨ht, he.symm⟩), hx], hnull⟩
  | modifyColumn t c =>
      refine hdb.alterColumn hrun fun ht hc x _ => ?_
      exact (Bool.not_eq_false _).mp fun hnull => h ⟨ht, hc, hnull⟩
  | setNotNull t c notNull =>
      refine hdb.alterColumn hrun fun ht hc x _ => ?_
      exact (Bool.not_eq_false _).mp fun hnull => h ⟨ht, hc, hnull⟩
  | setDefault | setType | addUnique | createUniqueIndex =>
      exact hdb.alterColumn hrun fun _ _ _ hnull => hnull
  | warning w =>
      cases hrun
      exact hdb

/-- A database with one column, which holds no null. -/
def oneColumn (table column : String) : Database :=
  Function.update (fun _ => none) table
    (some (Function.update (fun _ => none) column (some ⟨"INTEGER", true, none, false⟩)))

/-- What frees a column does not keep it from null. -/
theorem not_keepsNotNull_of_frees (h : st.Frees table column) : ¬ st.KeepsNotNull table column := by
  intro hkeeps
  have start : (oneColumn table column).ForbidsNull table column :=
    ⟨_, _, Function.update_self .., Function.update_self .., rfl⟩
  cases st with
  | dropTable t =>
      obtain rfl : t = table := h
      obtain ⟨u, -, hu, -⟩ := hkeeps _ _ (Store.remove_eq (Function.update_self ..)) start
      simp at hu
  | dropColumn t c =>
      obtain ⟨rfl, rfl⟩ := h
      obtain ⟨u, x, hu, hx, -⟩ := hkeeps _ _ (Store.alter_eq (Function.update_self ..)
        (Store.remove_eq (Function.update_self ..))) start
      rw [Function.update_self, Option.some.injEq] at hu
      simp [← hu] at hx
  | modifyColumn t c =>
      obtain ⟨rfl, rfl, hnull⟩ := h
      obtain ⟨u, x, hu, hx, hx'⟩ := hkeeps _ _ (Store.alter_eq (Function.update_self ..)
        (Store.alter_eq (Function.update_self ..) rfl)) start
      rw [Function.update_self, Option.some.injEq] at hu
      rw [← hu, Function.update_self, Option.some.injEq] at hx
      rw [← hx] at hx'
      exact absurd hx' (by simpa [ColumnDefinition.state] using hnull)
  | setNotNull t c notNull =>
      obtain ⟨rfl, rfl, rfl⟩ := h
      obtain ⟨u, x, hu, hx, hx'⟩ := hkeeps _ _ (Store.alter_eq (Function.update_self ..)
        (Store.alter_eq (Function.update_self ..) rfl)) start
      rw [Function.update_self, Option.some.injEq] at hu
      rw [← hu, Function.update_self, Option.some.injEq] at hx
      rw [← hx] at hx'
      cases hx'
  | _ => exact h

/-- **What keeps a column free of nulls**: all that does not drop it and does not let it hold
them. -/
theorem keepsNotNull_iff : st.KeepsNotNull table column ↔ ¬ st.Frees table column :=
  ⟨fun h hfrees => not_keepsNotNull_of_frees hfrees h, keepsNotNull_of_not_frees⟩

end Statement

/-- What each of the statements keeps, all of them keep. -/
theorem Database.ForbidsNull.runAll {stmts : List Statement} {table column : String}
    (h : ∀ st ∈ stmts, st.KeepsNotNull table column) {db db' : Database}
    (hdb : db.ForbidsNull table column) (hrun : Schemata.runAll stmts db = some db') :
    db'.ForbidsNull table column := by
  induction stmts generalizing db with
  | nil =>
      cases hrun
      exact hdb
  | cons st stmts ih =>
      obtain ⟨hst, hstmts⟩ := List.forall_mem_cons.mp h
      obtain ⟨mid, hmid, hrest⟩ := Option.bind_eq_some_iff.mp hrun
      exact ih hstmts (hst db mid hmid hdb) hrest

namespace Plan

variable {d : Dialect} {table : String} {old new : Field} {stmts : List Statement}

/-- Only columns are altered. -/
theorem isColumn_of_alterColumn (h : (alterColumn d table old new).outcome = .ok stmts) :
    old.isColumn ∧ new.isColumn := by
  unfold alterColumn at h
  split at h
  · unfold alterRebuilding at h
    dsimp only at h
    split at h <;> simp only [Journal.bind_ok_iff, Journal.ofExcept_ok_iff,
      Field.columnType_ok_iff] at h
    · obtain ⟨-, -, -, ⟨ho, -⟩, -, ⟨hn, -⟩, -⟩ := h
      exact ⟨ho, hn⟩
    · obtain ⟨-, ⟨ho, -⟩, -, ⟨hn, -⟩, -⟩ := h
      exact ⟨ho, hn⟩
  · simp only [alterInPlace, Journal.bind_ok_iff, Journal.ofExcept_ok_iff,
      Field.columnType_ok_iff] at h
    obtain ⟨-, ⟨ho, -⟩, -, ⟨hn, -⟩, -⟩ := h
    exact ⟨ho, hn⟩

/-- A key that is to hold nulls is one that would be weakened. -/
theorem weakensKey_of_key (hkey : old.isPrimaryKey = true) (hnew : new.isNotNull = false) :
    weakensKey old new = true := by
  have hold : old.isNotNull = true := by simp [Field.isNotNull, hkey]
  simp [weakensKey, hold, hkey, hnew]

theorem keyMayNotBeNull_mem (h : weakensKey old new = true) :
    .warning (.keyMayNotBeNull new.name) ∈ changes d table old new :=
  warning_mem_changes_iff.mpr (.inl ⟨h, rfl⟩)

/-- A former key is restated only for its type. -/
theorem restates_iff_of_weakensKey (h : weakensKey old new = true) :
    restates d old new = true ↔ d = .mysql ∧ old.storedType d ≠ new.storedType d := by
  simp [restates, h]

/-- A statement about a former key lets it hold nulls only by restating it. -/
theorem frees_of_mem_changes_iff (hw : weakensKey old new = true) (hnew : new.isNotNull = false) :
    (∃ st ∈ changes d table old new, st.Frees table new.name) ↔ restates d old new = true := by
  constructor
  · rintro ⟨st, hst, hfrees⟩
    cases change_of_mem hst with
    | whole hr => exact hr
    | nullability hkept => rw [hw] at hkept; cases hkept
    | _ => exact hfrees.elim
  · intro hr
    obtain ⟨rfl, -⟩ := (restates_iff_of_weakensKey hw).mp hr
    refine ⟨.modifyColumn table (new.restated .mysql), ?_, rfl, rfl, ?_⟩
    · simp [changes, inPlace, hr]
    · simp [Field.restated, hnew]

/-- **A former key that is to hold nulls.**  Its changes are planned just if both the old and the
new field are columns and the new default, where it is looked at, is one for its type.  Then a
remark says that the column goes on holding no null, and no statement takes the mark off; that no
statement at all lets the column hold nulls is so unless MySQL restates it for a new type. -/
theorem formerKey_keepsNotNull_iff {d : Dialect} {table : String} {old new : Field}
    (hkey : old.isPrimaryKey = true) (hnew : new.isNotNull = false) :
    ((∃ stmts, (alterColumn d table old new).outcome = .ok stmts) ↔
        old.isColumn ∧ new.isColumn ∧ (Writes d old new → new.Fits)) ∧
      ∀ stmts, (alterColumn d table old new).outcome = .ok stmts →
        (∀ s : Style, "-- WARNING: Attempt to DROP NOT NULL on primary key column " ++ new.name ++
          " skipped." ∈ stmts.map (·.render s)) ∧
        (∀ t c notNull, .setNotNull t c notNull ∉ stmts) ∧
        ((∀ st ∈ stmts, st.KeepsNotNull table new.name) ↔
          (d = .mysql → old.columnType d = new.columnType d)) := by
  have hw := weakensKey_of_key hkey hnew
  refine ⟨⟨?_, ?_⟩, ?_⟩
  · rintro ⟨stmts, h⟩
    obtain ⟨ho, hn⟩ := isColumn_of_alterColumn h
    exact ⟨ho, hn, ((alterColumn_ok_iff ho hn).mp h).1⟩
  · rintro ⟨ho, hn, hfits⟩
    exact ⟨_, (alterColumn_ok_iff ho hn).mpr ⟨hfits, rfl⟩⟩
  · intro stmts h
    obtain ⟨ho, hn⟩ := isColumn_of_alterColumn h
    obtain ⟨-, rfl⟩ := (alterColumn_ok_iff ho hn).mp h
    refine ⟨fun s => ?_, fun t c notNull hst => ?_, ?_⟩
    · exact List.mem_map.mpr ⟨_, keyMayNotBeNull_mem hw, rfl⟩
    · cases change_of_mem hst with
      | nullability hkept => rw [hw] at hkept; cases hkept
    · have htype : old.columnType d = new.columnType d ↔ old.storedType d = new.storedType d := by
        rw [Field.columnType_ok_iff.mpr ⟨ho, rfl⟩, Field.columnType_ok_iff.mpr ⟨hn, rfl⟩,
          Except.ok.injEq]
      have hfrees : (∃ st ∈ changes d table old new, st.Frees table new.name) ↔
          restates d old new = true := frees_of_mem_changes_iff hw hnew
      rw [restates_iff_of_weakensKey hw] at hfrees
      simp only [Statement.keepsNotNull_iff]
      rw [htype, ← not_iff_not]
      push Not
      exact hfrees

/-- A key that is a number. -/
def numberKey : Field := { name := "id", typeName := "int", isPrimaryKey := true }

/-- The same column as a text that may be null. -/
def textColumn : Field := { name := "id", typeName := "string" }

/-- Where columns are altered in place, a former key takes a new type and goes on holding no
null. -/
theorem textColumn_keepsNotNull :
    numberKey.isPrimaryKey = true ∧ textColumn.isNotNull = false ∧
      ∃ stmts, (alterColumn .postgres "user" numberKey textColumn).outcome = .ok stmts ∧
        stmts.map (·.render ⟨.postgres, false⟩) =
          ["-- WARNING: Attempt to DROP NOT NULL on primary key column id skipped.",
           "ALTER TABLE user ALTER COLUMN id TYPE VARCHAR(255);"] ∧
        ∀ st ∈ stmts, st.KeepsNotNull "user" "id" := by
  obtain ⟨-, hall⟩ := @formerKey_keepsNotNull_iff .postgres "user" numberKey textColumn
    rfl rfl
  refine ⟨rfl, rfl, _, rfl, by decide +kernel, ?_⟩
  obtain ⟨-, -, hkeeps⟩ := hall _ rfl
  exact hkeeps.mpr (fun h => by cases h)

/-- Where it is restated for its new type, a former key may hold nulls from then on. -/
theorem textColumn_frees :
    ∃ stmts, (alterColumn .mysql "user" numberKey textColumn).outcome = .ok stmts ∧
      stmts.map (·.render ⟨.mysql, false⟩) =
        ["-- WARNING: Attempt to DROP NOT NULL on primary key column id skipped.",
         "ALTER TABLE user MODIFY COLUMN id VARCHAR(255);"] ∧
      ∃ st ∈ stmts, st.isWarning = false ∧ ¬ st.KeepsNotNull "user" "id" := by
  refine ⟨[.warning (.keyMayNotBeNull "id"),
    .modifyColumn "user" { name := "id", type := "VARCHAR(255)" }], by decide +kernel,
    by decide +kernel, _, List.mem_cons_of_mem _ List.mem_cons_self, rfl, ?_⟩
  exact Statement.not_keepsNotNull_of_frees ⟨rfl, rfl, rfl⟩

end Plan

end Schemata
