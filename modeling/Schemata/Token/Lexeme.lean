import Schemata.Token
import Schemata.Text.Blank
import Schemata.Text.Digit

/-!
# Tokens — lexemes

A source is cut into lexemes, one after the other and with nothing between them: blanks and
comments, tokens, and pieces that are dropped because they are no token.  `Lexeme.split` makes
the cut, `placed` gives each lexeme the place of its first character, and `Token.scan` keeps the
tokens and, apart from them, a `LexFault` for each piece that was dropped.

One thing carries over from lexeme to lexeme.  After the word `json` the next opening brace, if
only blanks, comments and square brackets stand before it, begins a raw block: the text up to
the brace that closes it is one token (`Lexeme.arms`).

* `first_prefix`, `text_ne_nil` — a lexeme is what the source goes on with, and is not empty.
* `split_flatMap` — the lexemes put together again are the source.
-/

namespace Schemata

/-- Why a piece of the source is dropped. -/
inductive LexProblem where
  | unterminatedComment
  | unterminatedString
  | unterminatedBlock
  | unknownBlock (name : String)
  | malformedNumber (text : String)
  | unexpected (c : Char)
  deriving DecidableEq, Repr

def LexProblem.message : LexProblem → String
  | .unterminatedComment => "Unterminated block comment"
  | .unterminatedString => "Unterminated string literal"
  | .unterminatedBlock => "Unterminated json type block"
  | .unknownBlock name => s!"Unknown composite block '@@{name}'"
  | .malformedNumber text => s!"Invalid number format '{text}'"
  | .unexpected c => s!"Unexpected character '{c}'"

/-- A dropped piece of the source: why, and where it began. -/
structure LexFault where
  problem : LexProblem
  position : Position
  deriving DecidableEq, Repr

def LexFault.diagnostic (f : LexFault) : Diagnostic := ⟨.lexical, f.problem.message, f.position⟩

/-- What a lexeme is. -/
inductive LexemeKind where
  | blank
  | token (kind : TokenKind) (value : String)
  | dropped (problem : LexProblem)
  deriving DecidableEq, Repr

/-- A piece of the source. -/
structure Lexeme where
  kind : LexemeKind
  text : List Char
  deriving DecidableEq, Repr

namespace Lexeme

open Text

/-- What a word may begin with. -/
def isWordStart (c : Char) : Bool := c.isAlpha || c == '_'

/-- What a word may go on with.  The hyphen is here so that a name with a hyphen is one badly
formed name. -/
def isWordPart (c : Char) : Bool := c.isAlphanum || c == '_' || c == '-'

/-- The rest of a block comment, with its closing sign. -/
def commentTail : List Char → Option (List Char)
  | [] => none
  | '*' :: '/' :: _ => some ['*', '/']
  | c :: cs => (commentTail cs).map (c :: ·)

/-- The rest of a raw block in which `depth` braces are open, up to the brace that closes the
last of them. -/
def blockTail (depth : Nat) : List Char → Option (List Char)
  | [] => none
  | c :: cs =>
    if c = '{' then (blockTail (depth + 1) cs).map (c :: ·)
    else if c = '}' then
      if depth ≤ 1 then some [c] else (blockTail (depth - 1) cs).map (c :: ·)
    else (blockTail depth cs).map (c :: ·)

/-- The inside of a string literal up to the quote that closes it.  A backslash protects the
character after it, and both stay in the text. -/
def stringBody (quote : Char) : List Char → Option (List Char)
  | [] => none
  | '\\' :: c :: cs => (stringBody quote cs).map ('\\' :: c :: ·)
  | c :: cs => if c = quote then some [] else (stringBody quote cs).map (c :: ·)

/-- The lexeme at a slash: a comment, or a sign that is none. -/
def slash : List Char → Lexeme
  | '/' :: cs => ⟨.blank, '/' :: '/' :: cs.takeWhile (· != '\n')⟩
  | '*' :: cs =>
    match commentTail cs with
    | some tail => ⟨.blank, '/' :: '*' :: tail⟩
    | none => ⟨.dropped .unterminatedComment, '/' :: '*' :: cs⟩
  | _ => ⟨.dropped (.unexpected '/'), ['/']⟩

/-- The lexeme at an opening brace. -/
def brace (armed : Bool) (cs : List Char) : Lexeme :=
  if armed then
    match blockTail 1 cs with
    | some tail => ⟨.token .rawObject (String.ofList ('{' :: tail)), '{' :: tail⟩
    | none => ⟨.dropped .unterminatedBlock, '{' :: cs⟩
  else ⟨.token .openBrace "\x7b", ['{']⟩

/-- The lexeme at a sign that begins decorators and composite blocks. -/
def atSign : List Char → Lexeme
  | '@' :: cs =>
    let name := cs.takeWhile isWordPart
    let text := '@' :: '@' :: name
    if compositeBlocks.contains (String.ofList name) then
      ⟨.token .composite (String.ofList text), text⟩
    else ⟨.dropped (.unknownBlock (String.ofList name)), text⟩
  | _ => ⟨.token .atSign "@", ['@']⟩

/-- The lexeme at a quote. -/
def string (quote : Char) (cs : List Char) : Lexeme :=
  match stringBody quote cs with
  | some body => ⟨.token .stringLiteral (String.ofList body), quote :: body ++ [quote]⟩
  | none => ⟨.dropped .unterminatedString, quote :: cs⟩

/-- The lexeme at a letter or an underscore. -/
def word (c : Char) (cs : List Char) : Lexeme :=
  let text := c :: cs.takeWhile isWordPart
  ⟨.token (.ofWord (String.ofList text)) (String.ofList text), text⟩

/-- The lexeme at a digit: digits, then perhaps a point, which must be followed by digits. -/
def number (c : Char) (cs : List Char) : Lexeme :=
  let whole := c :: cs.takeWhile isDigit
  match cs.dropWhile isDigit with
  | '.' :: rest =>
    let places := rest.takeWhile isDigit
    let text := whole ++ '.' :: places
    if places.isEmpty then ⟨.dropped (.malformedNumber (String.ofList text)), text⟩
    else ⟨.token .numberLiteral (String.ofList text), text⟩
  | _ => ⟨.token .numberLiteral (String.ofList whole), whole⟩

/-- The first lexeme of a source. -/
def first (armed : Bool) (c : Char) (cs : List Char) : Lexeme :=
  if isBlank c then ⟨.blank, c :: cs.takeWhile isBlank⟩
  else if c = '/' then slash cs
  else if c = '{' then brace armed cs
  else if c = '@' then atSign cs
  else if c = '"' || c = '\'' then string c cs
  else if isWordStart c then word c cs
  else if isDigit c then number c cs
  else
    match TokenKind.ofSign? c with
    | some kind => ⟨.token kind (String.singleton c), [c]⟩
    | none => ⟨.dropped (.unexpected c), [c]⟩

/-- Whether a brace after this lexeme begins a raw block, if one before it did when `armed`. -/
def arms (armed : Bool) (x : Lexeme) : Bool :=
  match x.kind with
  | .blank => armed
  | .token .jsonType _ => true
  | .token .openBracket _ => armed
  | .token .closeBracket _ => armed
  | _ => false

/-- The lexemes of a source. -/
def split (armed : Bool) : List Char → List Lexeme
  | [] => []
  | c :: cs =>
    let x := first armed c cs
    x :: split (x.arms armed) (cs.drop (x.text.length - 1))
termination_by cs => cs.length
decreasing_by simp only [List.length_drop, List.length_cons]; omega

/-- The lexemes, each with the place of its first character. -/
def placed (p : Position) : List Lexeme → List (Position × Lexeme)
  | [] => []
  | x :: xs => (p, x) :: placed (p.after x.text) xs

/-- The token that a lexeme is. -/
def token? (p : Position) (x : Lexeme) : Option Token :=
  match x.kind with
  | .token kind value => some ⟨kind, value, p⟩
  | _ => none

/-- The fault that a lexeme is. -/
def fault? (p : Position) (x : Lexeme) : Option LexFault :=
  match x.kind with
  | .dropped problem => some ⟨problem, p⟩
  | _ => none

end Lexeme

/-- What a source holds: its tokens, the last one being the end of the input, and the pieces
that were dropped. -/
structure Scan where
  tokens : List Token
  faults : List LexFault
  deriving Repr

/-- The tokens of a source. -/
def Token.scan (source : String) : Scan :=
  let cs := source.toList
  let xs := Lexeme.placed .start (Lexeme.split false cs)
  { tokens :=
      xs.filterMap (fun (p, x) => x.token? p) ++ [⟨.endOfInput, "", Position.start.after cs⟩]
    faults := xs.filterMap fun (p, x) => x.fault? p }

namespace Lexeme

open Text

/-! ### Nothing is lost -/

theorem commentTail_prefix {cs tail : List Char} (h : commentTail cs = some tail) :
    tail <+: cs := by
  fun_induction commentTail cs generalizing tail with
  | case1 => simp at h
  | case2 cs => cases h; exact ⟨cs, rfl⟩
  | case3 c cs _ ih =>
    obtain ⟨t, ht, rfl⟩ := Option.map_eq_some_iff.1 h
    exact List.cons_prefix_cons.2 ⟨rfl, ih ht⟩

theorem blockTail_prefix {depth : Nat} {cs tail : List Char} (h : blockTail depth cs = some tail) :
    tail <+: cs := by
  fun_induction blockTail depth cs generalizing tail with
  | case1 => simp at h
  | case2 depth cs ih | case4 depth cs _ _ ih | case5 depth c cs _ _ ih =>
    obtain ⟨t, ht, rfl⟩ := Option.map_eq_some_iff.1 h
    exact List.cons_prefix_cons.2 ⟨rfl, ih ht⟩
  | case3 depth cs => cases h; exact ⟨cs, rfl⟩

theorem stringBody_prefix {quote : Char} {cs body : List Char}
    (h : stringBody quote cs = some body) : body ++ [quote] <+: cs := by
  fun_induction stringBody quote cs generalizing body with
  | case1 => simp at h
  | case2 c cs ih =>
    obtain ⟨t, ht, rfl⟩ := Option.map_eq_some_iff.1 h
    exact List.cons_prefix_cons.2 ⟨rfl, List.cons_prefix_cons.2 ⟨rfl, ih ht⟩⟩
  | case3 cs => cases h; exact ⟨cs, rfl⟩
  | case4 c cs _ _ ih =>
    obtain ⟨t, ht, rfl⟩ := Option.map_eq_some_iff.1 h
    exact List.cons_prefix_cons.2 ⟨rfl, ih ht⟩

theorem number_prefix (c : Char) (cs : List Char) : (number c cs).text <+: c :: cs := by
  have hcs : cs.takeWhile isDigit ++ cs.dropWhile isDigit = cs := List.takeWhile_append_dropWhile
  unfold number
  dsimp only
  split
  next rest heq =>
    have : c :: cs.takeWhile isDigit ++ '.' :: rest.takeWhile isDigit <+: c :: cs := by
      rw [List.cons_append]
      refine List.cons_prefix_cons.2 ⟨rfl, rest.dropWhile isDigit, ?_⟩
      rw [heq] at hcs
      simpa [List.append_assoc, List.takeWhile_append_dropWhile] using hcs
    split <;> exact this
  next => exact List.cons_prefix_cons.2 ⟨rfl, List.takeWhile_prefix _⟩

/-- The first lexeme stands at the front of the source. -/
theorem first_prefix (armed : Bool) (c : Char) (cs : List Char) :
    (first armed c cs).text <+: c :: cs := by
  have one : [c] <+: c :: cs := ⟨cs, rfl⟩
  unfold first
  split
  · exact List.cons_prefix_cons.2 ⟨rfl, List.takeWhile_prefix _⟩
  split
  · subst_vars
    unfold slash
    split
    · exact List.cons_prefix_cons.2
        ⟨rfl, List.cons_prefix_cons.2 ⟨rfl, List.takeWhile_prefix _⟩⟩
    · split
      next tail h =>
        exact List.cons_prefix_cons.2 ⟨rfl, List.cons_prefix_cons.2 ⟨rfl, commentTail_prefix h⟩⟩
      next => exact List.prefix_refl _
    · exact one
  split
  · subst_vars
    unfold brace
    split
    · split
      next tail h => exact List.cons_prefix_cons.2 ⟨rfl, blockTail_prefix h⟩
      next => exact List.prefix_refl _
    · exact one
  split
  · subst_vars
    unfold atSign
    split
    · dsimp only
      split <;> exact List.cons_prefix_cons.2
        ⟨rfl, List.cons_prefix_cons.2 ⟨rfl, List.takeWhile_prefix _⟩⟩
    · exact one
  split
  · unfold string
    split
    next body h => exact List.cons_prefix_cons.2 ⟨rfl, stringBody_prefix h⟩
    next => exact List.prefix_refl _
  split
  · exact List.cons_prefix_cons.2 ⟨rfl, List.takeWhile_prefix _⟩
  split
  · exact number_prefix c cs
  split <;> exact one

theorem text_ne_nil (armed : Bool) (c : Char) (cs : List Char) :
    (first armed c cs).text ≠ [] := by
  unfold first slash brace atSign string word number
  repeat' split
  all_goals simp
  all_goals split <;> simp

/-- The lexemes put together again are the source. -/
theorem split_flatMap (armed : Bool) (cs : List Char) :
    (split armed cs).flatMap Lexeme.text = cs := by
  fun_induction split armed cs with
  | case1 => rfl
  | case2 armed c cs x ih =>
    rw [List.flatMap_cons, ih]
    obtain ⟨rest, hrest⟩ := first_prefix armed c cs
    have hne := text_ne_nil armed c cs
    change x.text ++ rest = c :: cs at hrest
    change x.text ≠ [] at hne
    cases hx : x.text with
    | nil => exact absurd hx hne
    | cons d ds =>
      rw [hx, List.cons_append, List.cons.injEq] at hrest
      obtain ⟨rfl, rfl⟩ := hrest
      simp

end Lexeme

end Schemata
