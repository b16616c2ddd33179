import Schemata.Display.Line
import Schemata.Number.Binary64

/-!
# Display — tables

A table in a box.  It has a title in the middle over it, a heavy line around its heading and a light
one around its rows (`Grid.render`), and each cell has a blank at either side.

A column is as wide as its widest cell (`naturalWidth`).  If the columns do not fit on the screen,
the widest are made narrower until they do (`narrowed`), and the cells in them are broken into lines
between words; a word that is too long for a line is cut off, with a sign that tells so.
-/

namespace Schemata.Display

-- Sums start from the zero of the core library, whichever algebra is imported.
attribute [local instance (high)] Zero.ofOfNat0

/-- A table of marked texts: a title, a heading, and rows of as many cells. -/
structure Grid where
  title : String
  header : List String
  rows : List (List String)
  deriving DecidableEq, Repr

namespace Grid

/-- What ends a line when the width of a cell is looked for. -/
def endsLine (c : Char) : Bool := [10, 28, 29, 30, 133, 8232, 8233].contains c.toNat

/-- The columns of the longest line of a text, without its tabs. -/
def naturalWidth (cs : List Char) : Nat :=
  let (longest, last) := cs.foldl
    (fun (longest, last) c =>
      if endsLine c then (max longest last, 0) else (longest, last + charWidth c))
    (0, 0)
  max longest last

/-- Widths with the excess taken from the `count` that are equal to `top`: an even share from each,
but at most `share`. -/
def reduced (top share : Nat) (excess count : Nat) : List Nat → List Nat
  | [] => []
  | w :: ws =>
    if w = top then
      let taken := min share (Binary64.roundQuotient excess count)
      (w - taken) :: reduced top share (excess - taken) (count - 1) ws
    else w :: reduced top share excess count ws

/-- Widths whose sum is at most the limit.  The widest are reduced together, down to the next
narrower one, until nothing is left over; `steps` is as many as the columns left over. -/
def narrowed (limit : Nat) (steps : Nat) (ws : List Nat) : List Nat :=
  match steps with
  | 0 => ws
  | steps + 1 =>
    let excess := ws.sum - limit
    let top := ws.foldl max 0
    let next := (ws.filter (· != top)).foldl max 0
    if excess = 0 then ws
    else narrowed limit steps (reduced top (min excess (top - next)) excess (ws.count top) ws)

/-- The widths of the columns on a screen: no cell is wider than a table may be. -/
def fittedWidths (ws : List Nat) : List Nat :=
  let limit := screenWidth - (ws.length + 1)
  let padded := ws.map fun w => min (w + 2) limit
  List.zipWith (fun w p => min w (p - 2)) ws (narrowed limit (padded.sum - limit) padded)

/-- A text filled up with blanks. -/
def fill (w : Nat) (cs : List Char) : List Char := cs ++ List.replicate (w - width cs) ' '

/-- A text in the middle; an odd blank goes to the right. -/
def center (w : Nat) (cs : List Char) : List Char :=
  fill w (List.replicate ((w - width cs) / 2) ' ' ++ cs)

/-- The four signs of a line of a box. -/
structure Rule where
  left : Char
  inside : Char
  between : Char
  right : Char

/-- A line of a box. -/
def ruleLine (r : Rule) (widths : List Nat) : List Char :=
  r.left :: ([r.between].intercalate (widths.map fun w => List.replicate (w + 2) r.inside)) ++
    [r.right]

/-- One line of a row. -/
def rowLine (bar : Char) (widths : List Nat) (texts : List (List Char)) : List Char :=
  bar :: (List.zipWith (fun w t => ' ' :: fill w t ++ [' ', bar]) widths texts).flatten

/-- A text that is not wider than some columns; the last of them tells that something is missing. -/
def shortened (w : Nat) (cs : List Char) : List Char :=
  if w < width cs then cutAt (w - 1) cs ++ ['…'] else cs

/-- The lines of a cell. -/
def cellLines (w : Nat) (cs : List Char) : List (List Char) :=
  (linesOf cs).flatMap fun l => (broken w false l).map (shortened w)

/-- The lines of a row; a cell of fewer lines than the highest is filled up with empty ones. -/
def rowLines (bar : Char) (widths : List Nat) (row : List (List Char)) : List (List Char) :=
  let cells := List.zipWith cellLines widths row
  let height := (cells.map List.length).foldl max 1
  (List.range height).map fun i => rowLine bar widths (cells.map fun cell => (cell[i]?).getD [])

/-- The width of a table with columns of these widths. -/
def totalWidth (widths : List Nat) : Nat := (widths.map (· + 3)).sum + 1

/-- The lines of a table of columns, which have a heading and some rows each. -/
def lines (title : List Char) (columns : List (List (List Char))) (rows : Nat) :
    List (List Char) :=
  let widths := fittedWidths (columns.map fun cells => (cells.map naturalWidth).foldl max 0)
  let row (i : Nat) := columns.map fun cells => (cells[i]?).getD []
  center (totalWidth widths) title ::
    ruleLine ⟨'┏', '━', '┳', '┓'⟩ widths ::
    rowLines '┃' widths (row 0) ++
    ruleLine ⟨'┡', '━', '╇', '┩'⟩ widths ::
    (List.range rows).flatMap (fun i => rowLines '│' widths (row (i + 1))) ++
    [ruleLine ⟨'└', '─', '┴', '┘'⟩ widths]

/-- The columns of a table, each with its heading. -/
def columns (g : Grid) : List (List String) :=
  (List.range g.header.length).map fun i => (g.header :: g.rows).map fun row => (row[i]?).getD ""

/-- A marked text as it is shown. -/
def cell (s : String) : Except Markup.Fault (List Char) := (Markup.plain s).map shown

/-- A table as it is shown.  Of several faults the first is told, column by column. -/
def render (g : Grid) : Except Markup.Fault String := do
  let columns ← g.columns.mapM fun column => column.mapM cell
  let title ← cell g.title
  pure (written (lines title columns g.rows.length))

end Grid

end Schemata.Display
