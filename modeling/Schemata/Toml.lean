import Schemata.Number.Binary64

/-!
# TOML

The values of a TOML document, and how a document grows.  A document is a table; a line `[a.b]`
opens a table in it, a line `[[a.b]]` adds a table to an array of tables, and a line `a.b = 1` puts
a value into the table that is open.

A table can be opened only once.  So every table knows where it comes from (`Origin`): it may be
implied by the name of a table inside it, and then it can still be opened; it may have been opened
in some section of the document, by its header or by dotted keys, and then only dotted keys of the
same section reach into it; or it may be written in braces, and then nothing reaches into it.

`declare`, `append` and `insertUnder` are the three ways to grow; each answers nothing if the
document may not grow so.  None of them touches another key (`lookup_alter_of_ne`).
-/

namespace Schemata.Toml

/-- Where a table comes from. -/
inductive Origin where
  | implied
  | opened (part : Nat)
  | inline
  deriving DecidableEq, Repr

/-- A value.  The tables of an array of tables are known by their entries, the last one, which is
the one that is reached into, apart from the others. -/
inductive Value where
  | text (s : String)
  | integer (n : Int)
  | float (x : Binary64)
  | notANumber
  | boolean (b : Bool)
  | moment
  | array (items : List Value)
  | table (origin : Origin) (entries : List (String × Value))
  | tables (past : List (List (String × Value))) (last : List (String × Value))
  deriving Inhabited

/-- Keys and their values, in the order in which they came up. -/
abbrev Entries : Type := List (String × Value)

/-- The entries with what `f` makes of the value of a key, or of its absence. -/
def alter (key : String) (f : Option Value → Option Value) : Entries → Option Entries
  | [] => (f none).map fun v => [(key, v)]
  | (k, v) :: es =>
    if k = key then (f (some v)).map fun w => (k, w) :: es
    else (alter key f es).map ((k, v) :: ·)

theorem lookup_alter_of_ne {key other : String} (h : other ≠ key) {f : Option Value → Option Value}
    {es es' : Entries} (he : alter key f es = some es') : es'.lookup other = es.lookup other := by
  have hb : (other == key) = false := by simpa using h
  induction es generalizing es' with
  | nil =>
    obtain ⟨v, _, rfl⟩ := Option.map_eq_some_iff.1 he
    simp [List.lookup_cons, hb]
  | cons e es ih =>
    obtain ⟨k, v⟩ := e
    unfold alter at he
    split at he
    next hk =>
      obtain ⟨w, _, rfl⟩ := Option.map_eq_some_iff.1 he
      subst hk
      simp [List.lookup_cons, hb]
    next =>
      obtain ⟨rest, hrest, rfl⟩ := Option.map_eq_some_iff.1 he
      simp [List.lookup_cons, ih hrest]

namespace Value

/-- A table with nothing in it that is implied by a table inside it. -/
def bare : Value := .table .implied []

/-- The entries that can be reached into. -/
def entries? : Value → Option Entries
  | .table .inline _ => none
  | .table _ es => some es
  | .tables _ last => some last
  | _ => none

/-- The value with other entries to be reached into. -/
def withEntries (es : Entries) : Value → Value
  | .table origin _ => .table origin es
  | .tables past _ => .tables past es
  | v => v

/-- The value with one of its entries altered. -/
def within (key : String) (f : Option Value → Option Value) (v : Value) : Option Value := do
  let es ← v.entries?
  let es ← alter key f es
  pure (v.withEntries es)

/-- Opens the table of a path as a part of the document. -/
def declare (part : Nat) : List String → Option Value → Option Value
  | [], none => some (.table (.opened part) [])
  | [], some (.table .implied es) => some (.table (.opened part) es)
  | [], some _ => none
  | k :: ks, v => (v.getD bare).within k (declare part ks)

/-- Adds a table to the array of tables of a path. -/
def append : List String → Option Value → Option Value
  | [], none => some (.tables [] [])
  | [], some (.tables past last) => some (.tables (past ++ [last]) [])
  | [], some _ => none
  | k :: ks, v => (v.getD bare).within k (append ks)

/-- Puts a value at a path of dotted keys that begins here. -/
def insert (part : Nat) (value : Value) : List String → Option Value → Option Value
  | [], none => some value
  | [], some _ => none
  | k :: ks, none => (Value.table (.opened part) []).within k (insert part value ks)
  | k :: ks, some (.table origin es) =>
    if origin = .implied ∨ origin = .opened part then
      (Value.table (.opened part) es).within k (insert part value ks)
    else none
  | _ :: _, some _ => none

/-- Puts a value at a path of dotted keys that begins in the table of a header. -/
def insertUnder (part : Nat) (value : Value) (key : List String) :
    List String → Value → Option Value
  | h :: hs, v => v.within h fun inner => insertUnder part value key hs (inner.getD bare)
  | [], v =>
    match key with
    | k :: ks => v.within k (insert part value ks)
    | [] => none

end Value

end Schemata.Toml
