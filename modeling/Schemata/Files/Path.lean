import Schemata.Text.Split

/-!
# Files — paths

A path is a number of slashes at the front and the parts after them.  One that begins with a slash
is absolute, and any other starts at some directory that is not said.  Empty parts and single dots
say nothing and are left out when a path is read; two dots stay, as they may not be undone without
looking at the files.

Reading gives a `Path` that is its own reading (`ofString_text`), so paths are compared and shown
as `text` shows them.
-/

namespace Schemata

/-- A path: no slash at its front, one, or exactly two, and its parts. -/
structure Path where
  slashes : Nat := 0
  parts : List String
  deriving DecidableEq, Repr

namespace Path

/-- Whether a part says something. -/
def isPart (cs : List Char) : Bool := cs != [] && cs != ['.']

/-- The path that a text writes.  More than two slashes at the front are one. -/
def ofString (s : String) : Path :=
  let slashes := (s.toList.takeWhile (· == '/')).length
  { slashes := if slashes ≤ 2 then slashes else 1
    parts := ((Text.splitOn '/' s.toList).filter isPart).map String.ofList }

/-- A path as it is written; the directory that is not said is a dot. -/
def text (p : Path) : String :=
  if p.slashes = 0 && p.parts.isEmpty then "."
  else String.ofList (List.replicate p.slashes '/') ++ "/".intercalate p.parts

/-- What a path is in. -/
def parent (p : Path) : Path := { p with parts := p.parts.dropLast }

/-- A path from a directory. -/
def join (directory p : Path) : Path :=
  if p.slashes = 0 then { directory with parts := directory.parts ++ p.parts } else p

/-- The parts of a text that stands after slashes. -/
theorem splitOn_slashes (n : Nat) (cs : List Char) :
    Text.splitOn '/' (List.replicate n '/' ++ cs) = List.replicate n [] ++ Text.splitOn '/' cs := by
  induction n with
  | zero => rfl
  | succ n ih =>
    simp only [List.replicate_succ, List.cons_append, ← ih]
    exact Text.splitOn_append (p := []) _ (by simp)

/-- The parts of a path are parts, and have no slash in them. -/
theorem mem_parts_ofString {s part : String} (h : part ∈ (ofString s).parts) :
    isPart part.toList ∧ '/' ∉ part.toList := by
  obtain ⟨cs, hcs, rfl⟩ := List.mem_map.1 h
  obtain ⟨hmem, hpart⟩ := List.mem_filter.1 hcs
  simpa using ⟨hpart, Text.not_mem_of_mem_splitOn hmem⟩

theorem slashes_ofString_le (s : String) : (ofString s).slashes ≤ 2 := by
  unfold ofString
  dsimp only
  split <;> omega

/-- A path whose parts are parts is read from what it is written as. -/
theorem ofString_text_of {p : Path} (hs : p.slashes ≤ 2)
    (h : ∀ part ∈ p.parts, isPart part.toList ∧ '/' ∉ part.toList) : ofString p.text = p := by
  obtain ⟨n, parts⟩ := p
  dsimp only at hs h
  cases parts with
  | nil =>
    match n, hs with
    | 0, _ => decide
    | 1, _ => decide
    | 2, _ => decide
  | cons part parts =>
    have htext : (text ⟨n, part :: parts⟩).toList =
        List.replicate n '/' ++ ['/'].intercalate ((part :: parts).map String.toList) := by
      simp [text, String.toList_intercalate]
    have hsplit : Text.splitOn '/' (['/'].intercalate ((part :: parts).map String.toList)) =
        (part :: parts).map String.toList :=
      Text.splitOn_intercalate (by simp) fun cs hcs => by
        obtain ⟨q, hq, rfl⟩ := List.mem_map.1 hcs
        exact (h q hq).2
    have hfilter : ((part :: parts).map String.toList).filter isPart =
        (part :: parts).map String.toList :=
      List.filter_eq_self.2 fun cs hcs => by
        obtain ⟨q, hq, rfl⟩ := List.mem_map.1 hcs
        exact (h q hq).1
    have hfront : (['/'].intercalate ((part :: parts).map String.toList)).head? ≠ some '/' := by
      obtain ⟨hpart, hslash⟩ := h part (by simp)
      cases hcs : part.toList with
      | nil => simp [hcs, isPart] at hpart
      | cons c cs =>
        rw [hcs, List.mem_cons, not_or] at hslash
        cases parts <;> simp [List.intercalate, hcs, Ne.symm hslash.1]
    have hcount : ((List.replicate n '/' ++ ['/'].intercalate
        ((part :: parts).map String.toList)).takeWhile (· == '/')).length = n := by
      have hrest : (['/'].intercalate ((part :: parts).map String.toList)).takeWhile (· == '/') =
          [] := by
        cases hcs : ['/'].intercalate ((part :: parts).map String.toList) with
        | nil => rfl
        | cons c cs =>
          rw [hcs, List.head?_cons, Ne, Option.some.injEq] at hfront
          simp [hfront]
      rw [List.takeWhile_append_of_pos (by simp), hrest]
      simp
    unfold ofString
    rw [htext, hcount, splitOn_slashes, hsplit, List.filter_append, hfilter]
    simp [hs, isPart]

/-- What a path is written as is read as the same path. -/
theorem ofString_text (s : String) : ofString (ofString s).text = ofString s :=
  ofString_text_of (slashes_ofString_le s) fun _ h => mem_parts_ofString h

end Path

end Schemata
