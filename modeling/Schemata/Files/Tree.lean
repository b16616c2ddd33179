import Schemata.Files
import Schemata.Files.Path

/-!
# Files — trees

Files in directories, held in memory.  A place is the list of the names that lead to it from the
top, and the top is a directory; what stands at the other places is listed.

A path is followed from a directory (`Tree.locate`): each part but the last has to be a directory,
and two dots lead back.  A part has at most 255 bytes, a path at most 4095, and no zero character is
among them.  Whether there is something at the place that is reached is left to the
operation: reading needs a file, writing makes one or replaces it, and `makeDirectory` makes what
is missing on the way.
-/

namespace Schemata

/-- The names that lead somewhere from the top. -/
abbrev Place : Type := List String

/-- What stands at a place. -/
inductive Node where
  | file (bytes : List UInt8)
  | directory
  deriving DecidableEq, Repr

/-- Files and directories. -/
structure Tree where
  nodes : List (Place × Node) := []
  deriving DecidableEq, Repr

namespace Tree

/-- What stands at a place. -/
def node? (t : Tree) (place : Place) : Option Node :=
  if place = [] then some .directory else t.nodes.lookup place

/-- The tree with something else at a place. -/
def set (t : Tree) (place : Place) (n : Node) : Tree :=
  ⟨t.nodes.filter (fun e => e.1 != place) ++ [(place, n)]⟩

/-- Where a part leads from a directory. -/
def step (here : Place) (part : String) : Place :=
  if part = ".." then here.dropLast else here ++ [part]

/-- Whether a part is too long for the name of a file. -/
def isTooLong (part : String) : Bool := 255 < part.utf8ByteSize

/-- The place that parts lead to from a place. -/
def locate (t : Tree) (here : Place) : List String → Except FileProblem Place
  | [] => .ok here
  | part :: parts =>
    match t.node? here with
    | none => .error .missing
    | some (.file _) => .error .notDirectory
    | some .directory =>
      if isTooLong part then .error .nameTooLong else t.locate (step here part) parts

/-- The bytes of the file that parts lead to. -/
def read (t : Tree) (here : Place) (parts : List String) : Except FileProblem (List UInt8) := do
  match t.node? (← t.locate here parts) with
  | none => throw .missing
  | some .directory => throw .isDirectory
  | some (.file bytes) => pure bytes

/-- The tree with a file where parts lead to. -/
def write (t : Tree) (here : Place) (parts : List String) (bytes : List UInt8) :
    Except FileProblem Tree := do
  let place ← t.locate here parts
  if t.node? place = some .directory then throw .isDirectory
  else pure (t.set place (.file bytes))

/-- The tree with a directory where parts lead to, and on the way there. -/
def makeDirectory (t : Tree) (here : Place) : List String → Except FileProblem Tree
  | [] => .ok t
  | part :: parts =>
    if isTooLong part then .error .nameTooLong
    else match t.node? (step here part) with
    | none => (t.set (step here part) .directory).makeDirectory (step here part) parts
    | some .directory => t.makeDirectory (step here part) parts
    | some (.file _) => .error (if parts.isEmpty then .exists else .notDirectory)

/-- A file that was written is what stands there. -/
theorem node?_set_self {place : Place} (t : Tree) (n : Node) (h : place ≠ []) :
    (t.set place n).node? place = some n := by
  have hlookup : (t.nodes.filter (fun e => e.1 != place) ++ [(place, n)]).lookup place =
      some n := by
    induction t.nodes with
    | nil => simp
    | cons e es ih =>
      obtain ⟨k, m⟩ := e
      by_cases hk : k = place
      · simpa [hk] using ih
      · have : (place == k) = false := by simpa using fun h => hk h.symm
        simpa [hk, List.lookup_cons, this] using ih
  simpa [node?, set, h] using hlookup

/-- Nothing else changes. -/
theorem node?_set_of_ne {place other : Place} (t : Tree) (n : Node) (h : other ≠ place) :
    (t.set place n).node? other = t.node? other := by
  have hlookup : (t.nodes.filter (fun e => e.1 != place) ++ [(place, n)]).lookup other =
      t.nodes.lookup other := by
    induction t.nodes with
    | nil =>
      have : (other == place) = false := by simpa using h
      simp [List.lookup_cons, this]
    | cons e es ih =>
      obtain ⟨k, m⟩ := e
      by_cases hk : k = place
      · subst hk
        have : (other == k) = false := by simpa using h
        simpa [List.lookup_cons, this] using ih
      · by_cases ho : other = k
        · simp [hk, ho]
        · have : (other == k) = false := by simpa using ho
          simpa [hk, List.lookup_cons, this] using ih
  by_cases ho : other = []
  · simp [node?, ho]
  · simpa [node?, set, ho] using hlookup

end Tree

/-- What keeps a path from being followed at all. -/
def Path.check (p : Path) : Except FileProblem Unit :=
  if p.text.toList.contains (Char.ofNat 0) then .error .zeroCharacter
  else if 4095 < p.text.utf8ByteSize then .error .nameTooLong
  else .ok ()

end Schemata
