import Schemata.Display.Markup
import Schemata.Display.Width

/-!
# Display — lines

What is written on the screen, which is `screenWidth` columns wide.  A text is shown without the
controls that a screen would act on, and with tabs filled up to the next multiple of eight columns.

A line may be left as long as it is (`whole`).  Otherwise it is broken between words, and a word
that is too long for a line of its own is broken anywhere or not at all (`broken`).  Blanks that
would stick out at the end of a line are left out.
-/

namespace Schemata.Display

/-- The columns of the screen. -/
def screenWidth : Nat := 1000

/-- The controls that are left out of what is shown. -/
def isDroppedControl (c : Char) : Bool := [7, 8, 11, 12, 13].contains c.toNat

/-- A text without the controls that are left out. -/
def shown (s : String) : List Char := s.toList.filter fun c => !isDroppedControl c

/-- A line with its tabs filled up to the next multiple of eight, `column` columns being taken
already. -/
def expandTabs (column : Nat) : List Char → List Char
  | [] => []
  | c :: cs =>
    if c = '\t' then
      let blanks := 8 - column % 8
      List.replicate blanks ' ' ++ expandTabs (column + blanks) cs
    else c :: expandTabs (column + charWidth c) cs

/-- A line without the blanks at its end that are past the given number of characters. -/
def trimmedTo (size : Nat) (cs : List Char) : List Char :=
  let blanks := (cs.reverse.takeWhile Text.isBlank).length
  cs.take (cs.length - min blanks (cs.length - size))

/-- The part of a text that fits into some columns, and the rest. -/
def splitAtWidth (columns : Nat) : List Char → List Char × List Char
  | [] => ([], [])
  | c :: cs =>
    if charWidth c ≤ columns then
      let (front, rest) := splitAtWidth (columns - charWidth c) cs
      (c :: front, rest)
    else ([], c :: cs)

theorem splitAtWidth_append (columns : Nat) (cs : List Char) :
    (splitAtWidth columns cs).1 ++ (splitAtWidth columns cs).2 = cs := by
  induction cs generalizing columns with
  | nil => rfl
  | cons c cs ih =>
    rw [splitAtWidth]
    split
    · exact congrArg (c :: ·) (ih (columns - charWidth c))
    · rfl

/-- The first columns of a text; a blank stands for half a character. -/
def cutAt (columns : Nat) (cs : List Char) : List Char :=
  let front := (splitAtWidth columns cs).1
  if front.length < cs.length && width front < columns then front ++ [' '] else front

theorem length_splitAtWidth_le (columns : Nat) (cs : List Char) :
    (splitAtWidth columns cs).2.length ≤ cs.length := by
  have := congrArg List.length (splitAtWidth_append columns cs)
  rw [List.length_append] at this
  omega

/-- A word in parts that each fit into some columns, or are a single character. -/
def parts (columns : Nat) : List Char → List (List Char)
  | [] => []
  | c :: cs =>
    let split := splitAtWidth (columns - charWidth c) cs
    (c :: split.1) :: parts columns split.2
termination_by cs => cs.length
decreasing_by exact Nat.lt_succ_of_le (length_splitAtWidth_le _ cs)

/-- The words of a text that begins with one, each with the blanks after it. -/
def spacedWords : List Char → List (List Char)
  | [] => []
  | c :: cs =>
    let rest := cs.dropWhile fun d => !Text.isBlank d
    let word := c :: cs.takeWhile (fun d => !Text.isBlank d) ++ rest.takeWhile Text.isBlank
    word :: spacedWords (rest.dropWhile Text.isBlank)
termination_by cs => cs.length
decreasing_by
  have h := (List.dropWhile_sublist (fun d => !Text.isBlank d) (l := cs)).length_le
  have h' := (List.dropWhile_sublist Text.isBlank
    (l := cs.dropWhile fun d => !Text.isBlank d)).length_le
  simp only [List.length_cons]
  omega

/-- The words of a text, each with the blanks after it, and the first with those before it.  Blanks
alone are no word. -/
def wordsOf (cs : List Char) : List (List Char) :=
  match spacedWords (Text.stripLeft cs) with
  | [] => []
  | word :: words => (cs.takeWhile Text.isBlank ++ word) :: words

/-- A text that is being broken into lines: the lines that are done, the last one, and the columns
that it takes. -/
structure Breaking where
  done : List (List Char) := []
  last : List Char := []
  taken : Nat := 0

/-- The lines that are done when the last one is as well, if there is anything on it. -/
def Breaking.ended (b : Breaking) : List (List Char) :=
  if b.last.isEmpty then b.done else b.done ++ [b.last]

/-- The next word of a text that is being broken.  One that is too long for any line begins a line
of its own, and only goes on to the next if words are broken. -/
def Breaking.add (columns : Nat) (breaksWords : Bool) (b : Breaking) (word : List Char) :
    Breaking :=
  let needed := width (Text.stripRight word)
  if b.taken + needed ≤ columns then
    { b with last := b.last ++ word, taken := b.taken + width word }
  else if columns < needed && breaksWords then
    let ps := parts columns word
    let last := ps.getLastD []
    ⟨b.ended ++ ps.dropLast, last, width last⟩
  else ⟨b.ended, word, width word⟩

/-- A line broken into lines of some columns. -/
def broken (columns : Nat) (breaksWords : Bool) (cs : List Char) : List (List Char) :=
  match wordsOf cs with
  | [] => [trimmedTo columns cs]
  | words => (words.foldl (Breaking.add columns breaksWords) {}).ended.map (trimmedTo columns)

/-- The lines of a text. -/
def linesOf (cs : List Char) : List (List Char) :=
  (Text.splitOn '\n' cs).map (expandTabs 0)

/-- Lines as a text. -/
def written (lines : List (List Char)) : String :=
  String.ofList (lines.flatMap fun l => l ++ ['\n'])

/-- A text whose lines are left as long as they are. -/
def whole (s : String) : String :=
  written ((linesOf (shown s)).map (trimmedTo screenWidth))

/-- A text whose lines are broken at the end of the screen. -/
def folded (s : String) : String :=
  written ((linesOf (shown s)).flatMap fun l =>
    (broken screenWidth true l).map (cutAt screenWidth))

end Schemata.Display
