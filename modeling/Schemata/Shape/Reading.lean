import Schemata.Shape
import Schemata.Text.Blank

/-!
# Shapes — reading

Reading the block that follows the type `json`.  The block is an object: keys in braces, each
with a colon and a type, the type being a word or an object again.  A question mark after the
key makes it optional, `[]` after the type makes it an array, and commas and semicolons may
stand between entries in any number.

`Shape.ofText` answers the shape or the first `ShapeFault`; a character that belongs to no word
or sign is found before anything else is looked at.
-/

namespace Schemata

/-- What is wrong with a block. -/
inductive ShapeProblem where
  | unexpected (c : Char)
  | expectedSign (sign : Char)
  | expectedKey
  | expectedType
  | unterminated
  | duplicateKey (name : String)
  | trailing
  deriving DecidableEq, Repr

def ShapeProblem.message : ShapeProblem → String
  | .unexpected c => s!"Unexpected character '{c}' in json type block"
  | .expectedSign sign => s!"Expected '{sign}' in json type block"
  | .expectedKey => "Expected key name in json type block"
  | .expectedType => "Expected type name in json type block"
  | .unterminated => "Unterminated json type block"
  | .duplicateKey name => s!"Duplicate json key '{name}'"
  | .trailing => "Unexpected content after json type block"

/-- What is wrong with a block, and where. -/
structure ShapeFault where
  problem : ShapeProblem
  position : Position
  deriving DecidableEq, Repr

namespace Shape

/-- A word or a sign of a block, and how many characters of the block stand before it. -/
inductive Piece where
  | word (text : List Char) (offset : Nat)
  | sign (c : Char) (offset : Nat)
  deriving DecidableEq, Repr

def Piece.offset : Piece → Nat
  | .word _ n => n
  | .sign _ n => n

def Piece.isSign (p : Piece) (c : Char) : Bool :=
  match p with
  | .sign d _ => d == c
  | .word _ _ => false

def isWordStart (c : Char) : Bool := c.isAlpha || c == '_'

def isWordPart (c : Char) : Bool := c.isAlphanum || c == '_'

/-- The signs of a block. -/
def signs : List Char := ['{', '}', '[', ']', ':', '?', ',', ';']

/-- The pieces of a text that stands at `offset`, or the offset of a character that belongs to
none. -/
def pieces (offset : Nat) : List Char → Except (Nat × Char) (List Piece)
  | [] => .ok []
  | c :: cs =>
    if Text.isBlank c then pieces (offset + 1) cs
    else if isWordStart c then
      let tail := cs.takeWhile isWordPart
      (pieces (offset + tail.length + 1) (cs.drop tail.length)).map (.word (c :: tail) offset :: ·)
    else if signs.contains c then (pieces (offset + 1) cs).map (.sign c offset :: ·)
    else .error (offset, c)
termination_by cs => cs.length
decreasing_by all_goals simp only [List.length_drop, List.length_cons]; omega

/-- The block that is read: its text, and where it begins. -/
structure Block where
  text : List Char
  position : Position

namespace Block

/-- The place of an offset. -/
def place (b : Block) (offset : Nat) : Position := b.position.after (b.text.take offset)

/-- The place of the first piece, or the end of the block. -/
def here (b : Block) (ps : List Piece) : Position :=
  b.place ((ps.head?.map Piece.offset).getD b.text.length)

/-- A problem at the first piece. -/
def fault (b : Block) (problem : ShapeProblem) (ps : List Piece) : ShapeFault :=
  ⟨problem, b.here ps⟩

/-- The text from one offset up to another. -/
def slice (b : Block) (first last : Nat) : String :=
  String.ofList ((b.text.take last).drop first)

end Block

/-- What comes after a sign. -/
def expectSign (b : Block) (c : Char) : List Piece → Except ShapeFault (List Piece)
  | [] => .error (b.fault (.expectedSign c) [])
  | p :: ps => if p.isSign c then .ok ps else .error (b.fault (.expectedSign c) (p :: ps))

/-- A word, and what comes after it. -/
def expectWord (b : Block) (problem : ShapeProblem) :
    List Piece → Except ShapeFault (String × List Piece)
  | .word w _ :: ps => .ok (String.ofList w, ps)
  | ps => .error (b.fault problem ps)

/-- Whether the first piece is a sign; if it is, what comes after it. -/
def optionalSign (c : Char) : List Piece → Bool × List Piece
  | [] => (false, [])
  | p :: ps => if p.isSign c then (true, ps) else (false, p :: ps)

/-- The offset of an opening brace, and what comes after it. -/
def openBrace? : List Piece → Option (Nat × List Piece)
  | [] => none
  | p :: ps => if p.isSign '{' then some (p.offset, ps) else none

/-- Whether an array mark follows, and what comes after it. -/
def arrayMark (b : Block) (ps : List Piece) : Except ShapeFault (Bool × List Piece) :=
  match optionalSign '[' ps with
  | (true, ps) => (expectSign b ']' ps).map fun ps => (true, ps)
  | (false, ps) => .ok (false, ps)

/-- The front of an entry: its key, and whether it is optional. -/
def entryHead (b : Block) (ps : List Piece) : Except ShapeFault ((String × Bool) × List Piece) := do
  let (name, ps) ← expectWord b .expectedKey ps
  let (isOptional, ps) := optionalSign '?' ps
  let ps ← expectSign b ':' ps
  pure ((name, isOptional), ps)

theorem expectSign_length {b : Block} {c : Char} {ps qs : List Piece}
    (h : expectSign b c ps = .ok qs) : qs.length < ps.length := by
  unfold expectSign at h
  split at h
  · simp at h
  · split at h <;> simp_all

theorem expectWord_length {b : Block} {e : ShapeProblem} {ps qs : List Piece} {w : String}
    (h : expectWord b e ps = .ok (w, qs)) : qs.length < ps.length := by
  unfold expectWord at h
  split at h <;> simp_all

theorem optionalSign_length (c : Char) (ps : List Piece) :
    (optionalSign c ps).2.length ≤ ps.length := by
  unfold optionalSign
  split
  · simp
  · split <;> simp

theorem openBrace?_length {ps qs : List Piece} {first : Nat}
    (h : openBrace? ps = some (first, qs)) : qs.length < ps.length := by
  unfold openBrace? at h
  split at h
  · cases h
  · split at h <;> cases h
    exact Nat.lt_succ_self _

theorem entryHead_length {b : Block} {ps qs : List Piece} {h : String × Bool}
    (e : entryHead b ps = .ok (h, qs)) : qs.length < ps.length := by
  unfold entryHead at e
  cases hw : expectWord b .expectedKey ps with
  | error _ => simp [hw, bind, Except.bind] at e
  | ok r =>
    obtain ⟨name, ps₁⟩ := r
    cases hs : expectSign b ':' (optionalSign '?' ps₁).2 with
    | error _ => simp [hw, hs, bind, Except.bind] at e
    | ok ps₂ =>
      simp [hw, hs, bind, Except.bind, pure, Except.pure] at e
      have h₁ := expectWord_length hw
      have h₂ := expectSign_length hs
      have h₃ := optionalSign_length '?' ps₁
      rw [← e.2]
      omega

theorem arrayMark_length {b : Block} {ps qs : List Piece} {m : Bool}
    (e : arrayMark b ps = .ok (m, qs)) : qs.length ≤ ps.length := by
  unfold arrayMark at e
  have h := optionalSign_length '[' ps
  split at e
  next ps₁ heq =>
    rw [heq] at h
    cases hs : expectSign b ']' ps₁ with
    | error _ => simp [hs, Except.map] at e
    | ok ps₂ =>
      simp [hs, Except.map] at e
      have := expectSign_length hs
      simp only at h
      rw [← e.2]
      omega
  next ps₁ heq =>
    rw [heq] at h
    simp at e
    rw [← e.2]
    exact h

/-- An object that was read from `ps`: its entries, the offset after its closing brace, and the
pieces after it. -/
structure Body (ps : List Piece) where
  entries : List ShapeEntry
  stop : Nat
  rest : List Piece
  shorter : rest.length < ps.length

/-- The type of an entry that was read from `ps`. -/
structure EntryType (ps : List Piece) where
  typeName : String
  shape : Option Shape
  rest : List Piece
  shorter : rest.length < ps.length

/-- The entries of an object up to the brace that closes it, given the keys before them. -/
def readBody (b : Block) (seen : List String) (ps : List Piece) : Except ShapeFault (Body ps) :=
  match ps with
  | [] => .error (b.fault .unterminated [])
  | p :: rest =>
    if p.isSign '}' then .ok ⟨[], p.offset + 1, rest, by simp⟩
    else if p.isSign ',' || p.isSign ';' then
      match readBody b seen rest with
      | .error e => .error e
      | .ok body => .ok ⟨body.entries, body.stop, body.rest, by have := body.shorter; simp; omega⟩
    else
      match hhead : entryHead b (p :: rest) with
      | .error e => .error e
      | .ok ((name, isOptional), ps₁) =>
        have h₁ := entryHead_length hhead
        let type : Except ShapeFault (EntryType ps₁) :=
          match hopen : openBrace? ps₁ with
          | some (first, ps₂) =>
            have h₂ := openBrace?_length hopen
            match readBody b [] ps₂ with
            | .error e => .error e
            | .ok body =>
              .ok ⟨"object", some ⟨b.slice first body.stop, false, body.entries, b.place first⟩,
                body.rest, by have := body.shorter; omega⟩
          | none =>
            match hw : expectWord b .expectedType ps₁ with
            | .error e => .error e
            | .ok (w, qs) => .ok ⟨w, none, qs, expectWord_length hw⟩
        match type with
        | .error e => .error e
        | .ok type =>
          match hm : arrayMark b type.rest with
          | .error e => .error e
          | .ok (isArray, ps₃) =>
            have h₂ := type.shorter
            have h₃ := arrayMark_length hm
            if seen.contains name then .error (b.fault (.duplicateKey name) ps₃)
            else
              let entry : ShapeEntry :=
                { name, typeName := type.typeName, isOptional, isArray
                  shape := type.shape.map fun s => { s with isArray } }
              match readBody b (name :: seen) ps₃ with
              | .error e => .error e
              | .ok body =>
                .ok ⟨entry :: body.entries, body.stop, body.rest, by
                  have := body.shorter; omega⟩
termination_by ps.length
decreasing_by
  · simp
  · omega
  · omega

/-- The shape that a block writes. -/
def ofText (raw : String) (position : Position) (isArray : Bool) : Except ShapeFault Shape := do
  let b : Block := ⟨raw.toList, position⟩
  let ps ← (pieces 0 b.text).mapError fun (offset, c) => ⟨.unexpected c, b.place offset⟩
  let ps ← expectSign b '{' ps
  let body ← readBody b [] ps
  if body.rest.isEmpty then pure ⟨raw, isArray, body.entries, position⟩
  else throw (b.fault .trailing body.rest)

end Shape

end Schemata
