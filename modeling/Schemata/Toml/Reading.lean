import Schemata.Number.Numeral
import Schemata.Text.Percent
import Schemata.Toml

/-!
# TOML — reading

Reading a document from its text, line by line.  A line is empty, a header, or a key and a value;
blanks may stand around each of them, and a comment after it.  Values may go over several lines, but
only inside brackets and long strings.

A `Rule` takes characters and answers a value and the characters that are left, or a fault.  What is
wrong with a document is not told, except for an integer with too many digits.  A rule for a value
takes a depth, which bounds how far values are nested; a value has fewer values around it than there
are characters, so the length of the text is depth enough.
-/

namespace Schemata.Toml

/-- What is wrong with a document. -/
inductive Fault where
  | malformed
  | numeral (fault : NumeralFault)
  deriving DecidableEq, Repr

/-- A rule of the grammar. -/
abbrev Rule : Type → Type := StateT (List Char) (Except Fault)

def malformed {α : Type} : Rule α := throw .malformed

/-- The value there is, or a fault. -/
def orMalformed {α : Type} : Option α → Rule α
  | some a => pure a
  | none => malformed

/-- Goes on by what `f` answers about the characters. -/
def step {α : Type} (f : List Char → Option (α × List Char)) : Rule α := do
  let (a, rest) ← orMalformed (f (← get))
  set rest
  pure a

/-! ### Characters -/

def isBlank (c : Char) : Bool := c == ' ' || c == '\t'

/-- A control that may stand nowhere on a line. -/
def isControl (c : Char) : Bool := (c.toNat < 32 && c != '\t') || c.toNat == 127

def isBareKeyChar (c : Char) : Bool :=
  c.toNat < 128 && (c.isAlphanum || c == '-' || c == '_')

def skipBlanks : Rule Unit := modify (List.dropWhile isBlank)

/-- Takes a mark, if it is there. -/
def takeMark (mark : String) : Rule Bool := do
  let cs ← get
  if mark.toList.isPrefixOf cs then
    set (cs.drop mark.length)
    pure true
  else pure false

/-- Takes a mark, which has to be there. -/
def expectMark (mark : String) : Rule Unit := do
  if !(← takeMark mark) then malformed

/-- What is left after a comment, if one begins here. -/
def afterComment : List Char → Option (List Char)
  | '#' :: cs =>
    if (cs.takeWhile (· != '\n')).any isControl then none else some (cs.dropWhile (· != '\n'))
  | cs => some cs

def skipComment : Rule Unit := step fun cs => (afterComment cs).map ((), ·)

/-- What is left after blanks, line ends and comments. -/
def afterLines : List Char → Option (List Char)
  | [] => some []
  | c :: cs =>
    if isBlank c || c == '\n' then afterLines cs
    else if c == '#' then
      if (cs.takeWhile (· != '\n')).any isControl then none
      else afterLines (cs.dropWhile (· != '\n'))
    else some (c :: cs)
termination_by cs => cs.length
decreasing_by
  · simp
  · have := (List.dropWhile_sublist (l := cs) (· != '\n')).length_le
    simp only [List.length_cons]
    omega

def skipLines : Rule Unit := step fun cs => (afterLines cs).map ((), ·)

/-! ### Strings -/

/-- The character of a number in hexadecimal. -/
def hexChar? (digits : List Char) : Option Char :=
  if digits.all fun c => (Text.hexValue? c).isSome then
    let n := digits.foldl (fun n c => n * 16 + (Text.hexValue? c).getD 0) 0
    if n.isValidChar then some (Char.ofNat n) else none
  else none

/-- What the escapes of one letter stand for. -/
def escapes : List (Char × Char) :=
  [('b', '\x08'), ('t', '\t'), ('n', '\n'), ('f', '\x0c'), ('r', '\r'), ('"', '"'), ('\\', '\\')]

/-- What an escape stands for, given what follows the backslash, and how many characters of that it
takes.  In a long string a backslash at the end of a line takes the blanks and line ends after
it. -/
def escape (isLong : Bool) (cs : List Char) : Option (List Char × Nat) :=
  match cs with
  | [] => none
  | c :: rest =>
    if c = 'u' || c = 'U' then
      let size := if c = 'u' then 4 else 8
      let digits := rest.take size
      if digits.length = size then (hexChar? digits).map fun d => ([d], size + 1) else none
    else
      match escapes.lookup c with
      | some d => some ([d], 1)
      | none =>
        let blanks := cs.takeWhile isBlank
        match isLong, cs.drop blanks.length with
        | true, '\n' :: ds =>
          some ([], blanks.length + 1 + (ds.takeWhile fun d => isBlank d || d == '\n').length)
        | true, [] => if blanks.isEmpty then none else some ([], blanks.length)
        | _, _ => none

/-- The inside of a string between double quotes, and what follows it.  A long string ends at three
quotes. -/
def quotedText (isLong : Bool) : List Char → Option (List Char × List Char)
  | [] => none
  | c :: cs =>
    if c = '"' then
      if !isLong then some ([], cs)
      else if ['"', '"'].isPrefixOf cs then some ([], cs.drop 2)
      else (quotedText isLong cs).map fun (text, rest) => (c :: text, rest)
    else if c = '\\' then
      match escape isLong cs with
      | none => none
      | some (text, n) =>
        (quotedText isLong (cs.drop n)).map fun (more, rest) => (text ++ more, rest)
    else if isControl c && !(isLong && c == '\n') then none
    else (quotedText isLong cs).map fun (text, rest) => (c :: text, rest)
termination_by cs => cs.length
decreasing_by all_goals simp only [List.length_drop, List.length_cons]; omega

/-- The inside of a string between single quotes, in which nothing is escaped. -/
def literalText (isLong : Bool) : List Char → Option (List Char × List Char)
  | [] => none
  | c :: cs =>
    if c = '\'' && !isLong then some ([], cs)
    else if c = '\'' && ['\'', '\''].isPrefixOf cs then some ([], cs.drop 2)
    else if isControl c && !(isLong && c == '\n') then none
    else (literalText isLong cs).map fun (text, rest) => (c :: text, rest)

/-- A string of one line, from its first quote on. -/
def lineString : List Char → Option (String × List Char)
  | '"' :: cs => (quotedText false cs).map fun (text, rest) => (String.ofList text, rest)
  | '\'' :: cs => (literalText false cs).map fun (text, rest) => (String.ofList text, rest)
  | _ => none

/-- The text without a line end at its front. -/
def afterLineEnd : List Char → List Char
  | '\n' :: cs => cs
  | cs => cs

/-- The quotes, two at most, that stand between the inside of a long string and its end. -/
def extraQuotes (quote : Char) (rest : List Char) : List Char :=
  (rest.takeWhile (· == quote)).take 2

/-- A long string, from its first quote on. -/
def longString : List Char → Option (String × List Char)
  | '"' :: '"' :: '"' :: cs =>
    (quotedText true (afterLineEnd cs)).map fun (text, rest) =>
      let extra := extraQuotes '"' rest
      (String.ofList (text ++ extra), rest.drop extra.length)
  | '\'' :: '\'' :: '\'' :: cs =>
    (literalText true (afterLineEnd cs)).map fun (text, rest) =>
      let extra := extraQuotes '\'' rest
      (String.ofList (text ++ extra), rest.drop extra.length)
  | _ => none

/-! ### Keys -/

/-- One part of a key. -/
def keyPart (cs : List Char) : Option (String × List Char) :=
  match cs with
  | [] => none
  | c :: _ =>
    if isBareKeyChar c then
      some (String.ofList (cs.takeWhile isBareKeyChar), cs.dropWhile isBareKeyChar)
    else lineString cs

/-- A key of several parts with dots between them, and the blanks after it. -/
def key : Nat → Rule (List String)
  | 0 => malformed
  | depth + 1 => do
    let part ← step keyPart
    skipBlanks
    if ← takeMark "." then
      skipBlanks
      let parts ← key depth
      pure (part :: parts)
    else pure [part]

/-! ### Numbers and moments -/

/-- Digits of a class, with single underscores between them. -/
def digitTail (isDigit : Char → Bool) : List Char → List Char × List Char
  | [] => ([], [])
  | '_' :: c :: cs =>
    if isDigit c then
      let (run, rest) := digitTail isDigit cs
      ('_' :: c :: run, rest)
    else ([], '_' :: c :: cs)
  | c :: cs =>
    if isDigit c then
      let (run, rest) := digitTail isDigit cs
      (c :: run, rest)
    else ([], c :: cs)

/-- The same, beginning with a digit. -/
def digitRun (isDigit : Char → Bool) : List Char → Option (List Char × List Char)
  | [] => none
  | c :: cs =>
    if isDigit c then
      let (run, rest) := digitTail isDigit cs
      some (c :: run, rest)
    else none

/-- The letters of the bases other than ten. -/
def bases : List (Char × Nat) := [('x', 16), ('o', 8), ('b', 2)]

/-- An integer in another base than ten. -/
def basedInteger : List Char → Option (Nat × List Char)
  | '0' :: letter :: cs => do
    let base ← bases.lookup letter
    let value (c : Char) : Nat := (Text.hexValue? c).getD base
    let (run, rest) ← digitRun (fun c => value c < base) cs
    pure ((run.filter (· != '_')).foldl (fun n c => n * base + value c) 0, rest)
  | _ => none

/-- A sign, if there is one. -/
def sign : List Char → List Char × List Char
  | '+' :: cs => (['+'], cs)
  | '-' :: cs => (['-'], cs)
  | cs => ([], cs)

/-- The digits before the point: zero, or digits that do not begin with a zero. -/
def wholePart : List Char → Option (List Char × List Char)
  | '0' :: cs => some (['0'], cs)
  | cs => digitRun Char.isDigit cs

/-- The point and the digits after it, if they are there. -/
def fractionPart : List Char → List Char × List Char
  | '.' :: cs =>
    match digitRun Char.isDigit cs with
    | some (run, rest) => ('.' :: run, rest)
    | none => ([], '.' :: cs)
  | cs => ([], cs)

/-- The exponent, if it is there. -/
def exponentPart : List Char → List Char × List Char
  | [] => ([], [])
  | c :: cs =>
    if c == 'e' || c == 'E' then
      match digitRun Char.isDigit (sign cs).2 with
      | some (run, rest) => (c :: (sign cs).1 ++ run, rest)
      | none => ([], c :: cs)
    else ([], c :: cs)

/-- A number in base ten: its text, whether it has a fraction or an exponent, and what follows. -/
def decimalText (cs : List Char) : Option ((List Char × Bool) × List Char) := do
  let (s, cs) := sign cs
  let (whole, cs) ← wholePart cs
  let (places, cs) := fractionPart cs
  let (exponent, cs) := exponentPart cs
  pure ((s ++ whole ++ places ++ exponent, !(places.isEmpty && exponent.isEmpty)), cs)

/-- The numbers that are written as words, after a sign perhaps. -/
def namedNumber (cs : List Char) : Option (Value × List Char) :=
  let (s, rest) := sign cs
  if "inf".toList.isPrefixOf rest then some (.float (.infinite (s == ['-'])), rest.drop 3)
  else if "nan".toList.isPrefixOf rest then some (.notANumber, rest.drop 3)
  else none

/-- A number of `size` digits. -/
def fixedDigits (size : Nat) (cs : List Char) : Option (Nat × List Char) :=
  let run := cs.take size
  if run.length = size && run.all Char.isDigit then
    some (run.foldl (fun n c => n * 10 + (c.toNat - 48)) 0, cs.drop size)
  else none

/-- A number of two digits below a limit. -/
def twoDigits (limit : Nat) (cs : List Char) : Option (Nat × List Char) :=
  (fixedDigits 2 cs).filter fun (n, _) => n < limit

/-- What follows a character. -/
def afterChar (c : Char) : List Char → Option (List Char)
  | d :: cs => if d = c then some cs else none
  | [] => none

/-- What follows a time of day. -/
def afterTime (cs : List Char) : Option (List Char) := do
  let (_, cs) ← twoDigits 24 cs
  let (_, cs) ← twoDigits 60 (← afterChar ':' cs)
  let (_, cs) ← twoDigits 60 (← afterChar ':' cs)
  match cs with
  | '.' :: ds =>
    let rest := ds.dropWhile Char.isDigit
    pure (if rest.length < ds.length then rest else cs)
  | _ => pure cs

/-- What follows the offset of a time, if there is one. -/
def afterOffset (cs : List Char) : List Char :=
  match cs with
  | [] => []
  | c :: rest =>
    if c == 'Z' || c == 'z' then rest
    else if c == '+' || c == '-' then
      let offset : Option (List Char) := do
        let (_, ds) ← twoDigits 24 rest
        let (_, ds) ← twoDigits 60 (← afterChar ':' ds)
        pure ds
      offset.getD cs
    else cs

/-- The days of a month. -/
def daysIn (year month : Nat) : Nat :=
  if month = 2 then
    if year % 4 = 0 ∧ (year % 100 ≠ 0 ∨ year % 400 = 0) then 29 else 28
  else if [4, 6, 9, 11].contains month then 30
  else 31

/-- A date with a time perhaps: whether there is such a day, and what follows. -/
def dateTime (cs : List Char) : Option (Bool × List Char) := do
  let (year, cs) ← fixedDigits 4 cs
  let (month, cs) ← twoDigits 13 (← afterChar '-' cs)
  let (day, cs) ← twoDigits 32 (← afterChar '-' cs)
  if month = 0 || day = 0 then none
  let isDay := 0 < year && day ≤ daysIn year month
  match cs with
  | c :: rest =>
    if c == 'T' || c == 't' || c == ' ' then
      match afterTime rest with
      | some rest => pure (isDay, afterOffset rest)
      | none => pure (isDay, cs)
    else pure (isDay, cs)
  | [] => pure (isDay, [])

/-- A value that is a moment, a number or the name of one. -/
def bareValue : Rule Value := do
  let cs ← get
  match dateTime cs, afterTime cs with
  | some (isDay, rest), _ =>
    set rest
    if isDay then pure .moment else malformed
  | none, some rest =>
    set rest
    pure .moment
  | none, none =>
    match basedInteger cs, decimalText cs with
    | some (n, rest), _ =>
      set rest
      pure (.integer n)
    | none, some ((text, isFraction), rest) =>
      set rest
      if isFraction then
        let x ← orMalformed (Numeral.fraction? (String.ofList text))
        pure (.float x)
      else
        match Numeral.integer (String.ofList text) with
        | .ok n => pure (.integer n)
        | .error fault => throw (.numeral fault)
    | none, none => step namedNumber

/-! ### Values -/

mutual

/-- A value. -/
def value : Nat → Rule Value
  | 0 => malformed
  | depth + 1 => do
    match ← get with
    | '[' :: rest =>
      set rest
      let items ← arrayItems depth
      pure (.array items)
    | '{' :: rest =>
      set rest
      skipBlanks
      if ← takeMark "\x7d" then pure (.table .inline [])
      else
        let table ← inlineEntries depth .bare
        pure (.table .inline (table.entries?.getD []))
    | cs =>
      if "\"\"\"".toList.isPrefixOf cs || "'''".toList.isPrefixOf cs then
        .text <$> step longString
      else if cs.head? = some '"' || cs.head? = some '\'' then .text <$> step lineString
      else if ← takeMark "true" then pure (.boolean true)
      else if ← takeMark "false" then pure (.boolean false)
      else bareValue

/-- The values up to the bracket that closes an array. -/
def arrayItems : Nat → Rule (List Value)
  | 0 => malformed
  | depth + 1 => do
    skipLines
    if ← takeMark "]" then pure []
    else
      let item ← value depth
      skipLines
      if ← takeMark "]" then pure [item]
      else
        expectMark ","
        let items ← arrayItems depth
        pure (item :: items)

/-- The keys and values up to the brace that closes a table, put into a table. -/
def inlineEntries : Nat → Value → Rule Value
  | 0, _ => malformed
  | depth + 1, table => do
    let (path, item) ← keyValue depth
    let table ← orMalformed (Value.insertUnder 0 item path [] table)
    skipBlanks
    if ← takeMark "\x7d" then pure table
    else
      expectMark ","
      skipBlanks
      inlineEntries depth table

/-- A key and a value. -/
def keyValue : Nat → Rule (List String × Value)
  | 0 => malformed
  | depth + 1 => do
    let path ← key (depth + 1)
    expectMark "="
    skipBlanks
    let item ← value depth
    pure (path, item)

end

/-! ### Documents -/

/-- A document up to some line: what is in it, the header of the open table, and how many headers
there were. -/
structure Draft where
  root : Value := .bare
  header : List String := []
  part : Nat := 0

/-- A header, after its first bracket. -/
def headerLine (depth : Nat) (d : Draft) : Rule Draft := do
  let isArray ← takeMark "["
  skipBlanks
  let path ← key depth
  let part := d.part + 1
  if isArray then
    let root ← orMalformed (Value.append path (some d.root))
    expectMark "]]"
    pure ⟨root, path, part⟩
  else
    let root ← orMalformed (Value.declare part path (some d.root))
    expectMark "]"
    pure ⟨root, path, part⟩

/-- What a line does to the document. -/
def line (depth : Nat) (d : Draft) : Rule Draft := do
  skipBlanks
  match ← get with
  | [] => pure d
  | c :: rest =>
    let d ←
      if c == '\n' || c == '#' then pure d
      else if c == '[' then do
        set rest
        headerLine depth d
      else do
        let (path, item) ← keyValue depth
        let root ← orMalformed (Value.insertUnder d.part item path d.header d.root)
        pure { d with root }
    skipBlanks
    skipComment
    pure d

/-- The lines of a document. -/
def lines : Nat → Draft → Rule Draft
  | 0, _ => malformed
  | depth + 1, d => do
    let d ← line (depth + 1) d
    if (← get).isEmpty then pure d
    else
      expectMark "\n"
      lines depth d

/-- The text with the line ends of two characters made one. -/
def joinLineEnds : List Char → List Char
  | [] => []
  | '\r' :: '\n' :: cs => '\n' :: joinLineEnds cs
  | c :: cs => c :: joinLineEnds cs

/-- The entries of the document that a text writes. -/
def parse (s : String) : Except Fault Entries := do
  let cs := joinLineEnds s.toList
  let (d, _) ← (lines (cs.length + 2) {}).run cs
  pure (d.root.entries?.getD [])

end Schemata.Toml
