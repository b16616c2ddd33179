import Mathlib.Logic.Function.Basic
import Schemata.Script

/-!
# Proofs — databases

What statements do.  A database is a store of tables, a table a store of columns, and of a column
its type, its default, and whether it may hold null and is unique are known (`ColumnState`).
`Statement.run` is the plain meaning of a statement.  A statement has no meaning where its table
or column is missing, or is there already when it should be new, so that a script that runs
(`runAll`) meets no error on its way.

* `Store.walk` — steps that change one key each, all of them different, change all of them and
  nothing else.
* `Script.executable_ofStatements` — the text that is executed is the text of the statements that
  are not remarks.
-/

namespace Schemata

/-- What is kept under names. -/
abbrev Store (α : Type) : Type := String → Option α

/-- What a database knows of a column. -/
structure ColumnState where
  type : String
  isNotNull : Bool
  default : Option Expression
  isUnique : Bool
  deriving DecidableEq, Repr

abbrev TableState : Type := Store ColumnState

abbrev Database : Type := Store TableState

namespace Store

variable {α : Type}

def add (s : Store α) (key : String) (x : α) : Option (Store α) :=
  if (s key).isSome then none else some (Function.update s key (some x))

def remove (s : Store α) (key : String) : Option (Store α) :=
  if (s key).isSome then some (Function.update s key none) else none

def alter (s : Store α) (key : String) (f : α → Option α) : Option (Store α) :=
  (s key).bind fun x => (f x).map fun y => Function.update s key (some y)

/-- A key that is not there can be added. -/
theorem add_eq {s : Store α} {key : String} (h : s key = none) (x : α) :
    s.add key x = some (Function.update s key (some x)) := by
  unfold add
  rw [h]
  rfl

theorem remove_eq {s : Store α} {key : String} {x : α} (h : s key = some x) :
    s.remove key = some (Function.update s key none) := by
  unfold remove
  rw [h]
  rfl

theorem alter_eq {s : Store α} {key : String} {x y : α} {f : α → Option α} (h : s key = some x)
    (hf : f x = some y) : s.alter key f = some (Function.update s key (some y)) := by
  unfold alter
  rw [h, Option.bind_some, hf, Option.map_some]

/-- **Each its own key.**  `R` is what a list of statements makes of a store.  If the statements
of `a` change the value of the key of `a` alone, then the statements of a list of things with
different keys change the values of their keys alone. -/
theorem walk {β : Type} {R : List Statement → Store α → Store α → Prop} (nil : ∀ s, R [] s s)
    (append : ∀ {xs ys s s' s''}, R xs s s' → R ys s' s'' → R (xs ++ ys) s s'')
    {key : β → String} {stmts : β → List Statement} {before after : β → Option α} {xs : List β}
    (step : ∀ a ∈ xs, ∀ s, s (key a) = before a →
      R (stmts a) s (Function.update s (key a) (after a)))
    (distinct : (xs.map key).Nodup) {s : Store α} (start : ∀ a ∈ xs, s (key a) = before a) :
    ∃ s', R (xs.flatMap stmts) s s' ∧ (∀ a ∈ xs, s' (key a) = after a) ∧
      ∀ k ∉ xs.map key, s' k = s k := by
  induction xs generalizing s with
  | nil => exact ⟨s, nil s, fun a ha => absurd ha List.not_mem_nil, fun _ _ => rfl⟩
  | cons x xs ih =>
      obtain ⟨hx, distinct⟩ := List.nodup_cons.mp distinct
      have apart : ∀ a ∈ xs, key a ≠ key x := fun a ha h => hx (h ▸ List.mem_map_of_mem ha)
      have start' : ∀ a ∈ xs, Function.update s (key x) (after x) (key a) = before a :=
        fun a ha => by
          rw [Function.update_of_ne (apart a ha)]
          exact start a (List.mem_cons_of_mem x ha)
      obtain ⟨s', hrun, hafter, hframe⟩ :=
        ih (fun a ha => step a (List.mem_cons_of_mem x ha)) distinct start'
      refine ⟨s', ?_, ?_, ?_⟩
      · exact append (step x List.mem_cons_self s (start x List.mem_cons_self)) hrun
      · rintro a ha
        rcases List.mem_cons.mp ha with rfl | ha
        · rw [hframe _ hx, Function.update_self]
        · exact hafter a ha
      · intro k hk
        rw [List.map_cons, List.mem_cons, not_or] at hk
        rw [hframe k hk.2, Function.update_of_ne hk.1]

end Store

/-! ### The meaning of statements -/

/-- A column as it is declared.  A key holds no null and is no further unique column, and a column
that counts up holds integers. -/
def ColumnDefinition.state (c : ColumnDefinition) : ColumnState :=
  { type := if c.type = "SERIAL" then "INTEGER" else c.type
    isNotNull := c.isKey || c.isNotNull
    default := c.default
    isUnique := c.isUnique && !c.isKey }

/-- The columns that the parts of a table declare. -/
def columnsOf (elements : List TableElement) : List ColumnDefinition :=
  elements.filterMap fun
    | .column c => some c
    | .unique _ => none
    | .foreignKey _ _ _ _ => none

/-- A table as it is declared. -/
def tableOf (elements : List TableElement) : TableState := fun name =>
  ((columnsOf elements).find? fun c => c.name == name).map (·.state)

namespace Statement

/-- What a statement makes of a database, where it can be run. -/
def run (st : Statement) (db : Database) : Option Database :=
  match st with
  | .createTable table elements =>
    if ((columnsOf elements).map (·.name)).Nodup then db.add table (tableOf elements) else none
  | .dropTable table => db.remove table
  | .addColumn table c => db.alter table fun t => t.add c.name c.state
  | .dropColumn table column => db.alter table fun t => t.remove column
  | .modifyColumn table c => db.alter table fun t => t.alter c.name fun old =>
      some { c.state with isUnique := old.isUnique }
  | .setNotNull table column notNull => db.alter table fun t => t.alter column fun old =>
      some { old with isNotNull := notNull }
  | .setDefault table column default => db.alter table fun t => t.alter column fun old =>
      some { old with default }
  | .setType table column type _ => db.alter table fun t => t.alter column fun old =>
      some { old with type }
  | .addUnique table column => db.alter table fun t => t.alter column fun old =>
      some { old with isUnique := true }
  | .createUniqueIndex _ table column => db.alter table fun t => t.alter column fun old =>
      some { old with isUnique := true }
  | .warning _ => some db

end Statement

/-- What statements make of a database, one after the other. -/
def runAll (stmts : List Statement) (db : Database) : Option Database :=
  stmts.foldlM (fun db st => st.run db) db

theorem runAll_nil (db : Database) : runAll [] db = some db := rfl

/-- Statements that lead on from each other can be run together. -/
theorem runAll_append {xs ys : List Statement} {db db' db'' : Database}
    (h : runAll xs db = some db') (h' : runAll ys db' = some db'') :
    runAll (xs ++ ys) db = some db'' := by
  unfold runAll at *
  rw [List.foldlM_append, h]
  exact h'

theorem runAll_singleton (st : Statement) (db : Database) : runAll [st] db = st.run db := by
  unfold runAll
  rw [List.foldlM_cons]
  show (st.run db).bind some = _
  rw [Option.bind_fun_some]

/-- Remarks may be left out. -/
theorem runAll_executable (stmts : List Statement) (db : Database) :
    runAll (stmts.filter fun st => !st.isWarning) db = runAll stmts db := by
  induction stmts generalizing db with
  | nil => rfl
  | cons st stmts ih =>
      cases hw : st.isWarning with
      | true =>
          obtain ⟨w, rfl⟩ : ∃ w, st = .warning w := by cases st <;> cases hw; exact ⟨_, rfl⟩
          exact ih db
      | false =>
          rw [List.filter_cons_of_pos (by rw [hw]; rfl)]
          unfold runAll at *
          rw [List.foldlM_cons, List.foldlM_cons]
          exact congrArg _ (funext ih)

/-! ### What is executed of a script -/

/-- What a text begins with decides whether it is a remark. -/
theorem isRemark_append {front : String} (hlen : 2 ≤ front.toList.length)
    (hhead : front.toList.head?.all fun c => !Text.isBlank c) (rest : String) :
    isRemark (front ++ rest) = isRemark front := by
  unfold isRemark
  rw [String.toList_append]
  match h : front.toList, hlen, hhead with
  | c :: e :: cs, _, hc =>
      have hc : Text.isBlank c = false := by simpa using hc
      rw [List.cons_append, List.cons_append, Text.stripLeft_of_head hc, Text.stripLeft_of_head hc]
      simp [List.isPrefixOf]

/-- The text of a warning is a remark. -/
theorem Warning.isRemark_render (w : Warning) : isRemark w.render = true := by
  unfold Warning.render
  cases w <;> dsimp only <;> simp only [String.append_assoc] <;>
    exact (isRemark_append (by decide +kernel) (by decide +kernel) _).trans (by decide +kernel)

/-- **The remarks of a script** are the changes that are only told of. -/
theorem Statement.isRemark_render (s : Style) (st : Statement) :
    isRemark (st.render s) = st.isWarning := by
  unfold Statement.render
  cases st with
  | warning w => exact w.isRemark_render
  | _ =>
      dsimp only [Style.alterColumn, Style.alter]
      simp only [String.append_assoc]
      exact isRemark_append (by decide) (by decide) _

/-- **What is executed.** -/
theorem Script.executable_ofStatements (s : Style) (stmts : List Statement) :
    (Script.ofStatements s stmts).executable =
      (stmts.filter fun st => !st.isWarning).map (·.render s) := by
  unfold Script.executable Script.ofStatements
  rw [List.filter_map]
  congr 2
  funext st
  exact congrArg _ (st.isRemark_render s)

end Schemata
