import Schemata.Display.Pictograph
import Schemata.Display.TextStyle

/-!
# Display — markup

Text with tags in square brackets.  A tag is a bracket, one of the signs that begin a tag, and
everything up to the bracket that closes it; a tag that begins with a slash closes the last one that
names the same style, or just the last one.  Tags only set a style, and without styles they are not
seen (`Markup.plain`).  A backslash before a tag makes it text, and two backslashes before a tag are
one.  The names of pictographs in the text between two tags are shown as pictographs.

`Markup.escape` puts a backslash before every tag, so that a text can stand inside markup.
-/

namespace Schemata.Markup

/-- A closing tag that closes nothing. -/
inductive Fault where
  | unmatched (tag : String) (position : Nat)
  | nothingOpen (position : Nat)
  deriving DecidableEq, Repr

def Fault.message : Fault → String
  | .unmatched tag position =>
    "closing tag '[" ++ tag ++ "]' at position " ++ toString position ++
      " doesn't match any open tag"
  | .nothingOpen position =>
    "closing tag '[/]' at position " ++ toString position ++ " has nothing to close"

/-- What a tag begins with. -/
def isTagStart (c : Char) : Bool := ('a' ≤ c && c ≤ 'z') || c == '#' || c == '/' || c == '@'

/-- The inside of the tag at the front of a text. -/
def tag? : List Char → Option (List Char)
  | '[' :: c :: cs =>
    let inside := cs.takeWhile fun d => d != ']' && d != '['
    match cs.drop inside.length with
    | ']' :: _ => if isTagStart c then some (c :: inside) else none
    | _ => none
  | _ => none

/-- A piece of marked text: text, a tag that is shown as text, or a tag with its position. -/
inductive Piece where
  | text (cs : List Char)
  | shownTag (cs : List Char)
  | tag (inside : List Char) (position : Nat)

/-- The pieces at the front of a text, and how many characters they are made of. -/
def front (offset : Nat) (c : Char) (cs : List Char) : List Piece × Nat :=
  let escapes := ((c :: cs).takeWhile (· == '\\')).length
  let rest := (c :: cs).drop escapes
  match tag? rest with
  | some inside =>
    let kept := List.replicate (escapes / 2) '\\'
    (if escapes % 2 = 1 then [.shownTag (kept ++ '[' :: inside ++ [']'])]
      else [.shownTag kept, .tag inside (offset + escapes)],
     escapes + inside.length + 2)
  | none =>
    if escapes = 0 then ([.text [c]], 1)
    else if rest.head? = some '[' then
      ([.text (List.replicate (escapes - 1) '\\' ++ ['['])], escapes + 1)
    else ([.text (List.replicate escapes '\\')], escapes)

/-- Pieces and the pieces after them; text and text are one. -/
def joined : List Piece → List Piece → List Piece
  | [.text cs], .text ds :: ps => .text (cs ++ ds) :: ps
  | ps, qs => ps ++ qs

/-- The pieces of a text that stands at an offset. -/
def pieces (offset : Nat) : List Char → List Piece
  | [] => []
  | c :: cs =>
    let (ps, length) := front offset c cs
    joined ps (pieces (offset + length) (cs.drop (length - 1)))
termination_by cs => cs.length
decreasing_by simp only [List.length_drop, List.length_cons]; omega

/-- What a piece shows. -/
def Piece.shown : Piece → List Char
  | .text cs => Pictograph.drawn cs
  | .shownTag cs => Pictograph.drawn cs
  | .tag _ _ => []

/-- The name of a tag, without what it is set to. -/
def tagName (inside : List Char) : List Char := (Text.cut '=' inside).1

/-- Whether every closing tag closes an open one; `opened` are the names of those open.  What a tag
is set to is not looked at: one whose name begins with `@` is open and closed as any other. -/
def checkTags (opened : List String) : List Piece → Except Fault Unit
  | [] => .ok ()
  | .text _ :: ps => checkTags opened ps
  | .shownTag _ :: ps => checkTags opened ps
  | .tag inside position :: ps =>
    match tagName inside with
    | '/' :: name =>
      let name := Text.strip (String.ofList name)
      let style := TextStyle.nameOf name
      if name.isEmpty then
        match opened with
        | [] => .error (.nothingOpen position)
        | _ :: opened => checkTags opened ps
      else if opened.contains style then checkTags (opened.erase style) ps
      else .error (.unmatched (String.ofList inside) position)
    | name => checkTags (TextStyle.nameOf (String.ofList name) :: opened) ps

/-- A marked text without its tags. -/
def plain (s : String) : Except Fault String := do
  let ps := pieces 0 s.toList
  checkTags [] ps
  pure (String.ofList (ps.flatMap Piece.shown))

/-- A text with a backslash before every tag, and the backslashes before a tag doubled. -/
def escapeTags : List Char → List Char
  | [] => []
  | c :: cs =>
    let escapes := ((c :: cs).takeWhile (· == '\\')).length
    match tag? ((c :: cs).drop escapes) with
    | some inside =>
      List.replicate (2 * escapes + 1) '\\' ++ '[' :: inside ++ ']' ::
        escapeTags (cs.drop (escapes + inside.length + 1))
    | none =>
      if escapes = 0 then c :: escapeTags cs
      else List.replicate escapes '\\' ++ escapeTags (cs.drop (escapes - 1))
termination_by cs => cs.length
decreasing_by all_goals simp only [List.length_drop, List.length_cons]; omega

/-- A text as markup that shows it.  A single backslash at the end is doubled. -/
def escape (s : String) : String :=
  let cs := escapeTags s.toList
  String.ofList
    (match cs.reverse with
    | '\\' :: '\\' :: _ => cs
    | '\\' :: _ => cs ++ ['\\']
    | _ => cs)

end Schemata.Markup
