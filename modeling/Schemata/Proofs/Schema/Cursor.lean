import Mathlib.Data.PFun
import Schemata.Schema.Reading

/-!
# Proofs — schemas — the cursor

Reading with a cursor.  The rules of the grammar take what is left of the tokens before the end of
the input.  A walk (`Walk`) is given all tokens instead (`Row`), with the end of the input and what
may stand behind it, and it keeps a place among them (`Cursor`), which only `Walk.advance` changes.
Nothing here keeps the cursor from passing the end of the input, or a loop from going round for
ever: a walk that never ends has no answer, and what it does on its way is written down (`Move`).

A walk is broken off by a fault, which only the loop over models takes up again
(`Walk.modelRound`), or by a number that is none, which nothing does (`Halt`).
-/

namespace Schemata

/-- The tokens of a list that ends in the end of the input: the last one, and those before it. -/
structure Row where
  front : List Token
  last : Token

/-- A list that does not end in the end of the input gets it, where its last token stands. -/
def Row.ofList? (ts : List Token) : Option Row :=
  ts.getLast?.map fun last =>
    if last.kind = .endOfInput then ⟨ts.dropLast, last⟩
    else ⟨ts, ⟨.endOfInput, "", last.position⟩⟩

/-- The token at a place.  Behind the last one, that one comes again and again. -/
def Row.token (row : Row) (place : Nat) : Token := row.front[place]?.getD row.last

/-- The loops of the reading: over the models of a schema, the tokens that are passed over after a
fault, the members of a model, the arguments of an unsupported block, the names of a composite
block, and the decorators of a field. -/
inductive Loop where
  | models
  | recovery
  | members
  | arguments
  | uniqueMembers
  | decorators
  deriving DecidableEq, Repr

/-- What is written down of a walk. -/
inductive Move where
  /-- The cursor is moved on from a place. -/
  | step (place : Nat)
  /-- A loop is gone through once, from one place to another, and whether it is gone on with. -/
  | round (loop : Loop) (start stop : Nat) (again : Bool)
  /-- A token is dropped, since neither a model nor a fault has moved the cursor. -/
  | drop (place : Nat)
  deriving DecidableEq, Repr

/-- A place among the tokens, with the faults that were noted and the moves that were made. -/
structure Cursor where
  place : Nat
  faults : List SyntaxFault
  moves : List Move

/-- The cursor before the first token. -/
def Cursor.start : Cursor := ⟨0, [], []⟩

def Cursor.noting (c : Cursor) (f : SyntaxFault) : Cursor := { c with faults := c.faults ++ [f] }

def Cursor.moving (c : Cursor) (m : Move) : Cursor := { c with moves := c.moves ++ [m] }

@[simp] theorem Cursor.noting_place (c : Cursor) (f : SyntaxFault) : (c.noting f).place = c.place :=
  rfl

@[simp] theorem Cursor.moving_place (c : Cursor) (m : Move) : (c.moving m).place = c.place := rfl

/-- Why a walk is broken off. -/
inductive Halt where
  | fault (fault : SyntaxFault)
  | broken (fault : NumeralFault)
  deriving DecidableEq, Repr

/-- A way to move a cursor along a row.  One that never ends has no answer. -/
def Walk (α : Type) : Type := Row → Cursor →. Except Halt α × Cursor

namespace Walk

variable {α β σ : Type}

protected def pure (a : α) : Walk α := fun _ c => Part.some (.ok a, c)

protected def bind (x : Walk α) (f : α → Walk β) : Walk β := fun row c =>
  (x row c).bind fun
    | (.ok a, c') => f a row c'
    | (.error e, c') => Part.some (.error e, c')

instance : Monad Walk where
  pure := Walk.pure
  bind := Walk.bind

/-! ### The cursor -/

/-- The token so many places on. -/
def lookAt (offset : Nat) : Walk Token := fun row c =>
  Part.some (.ok (row.token (c.place + offset)), c)

/-- The token that comes next. -/
def next : Walk Token := lookAt 0

/-- Takes the token that comes next, whatever it is.  Only behind the last token of the row does
the cursor stay where it is. -/
def advance : Walk Token := fun row c =>
  Part.some (.ok (row.token c.place),
    { c with
      place := if c.place < row.front.length + 1 then c.place + 1 else c.place
      moves := c.moves ++ [.step c.place] })

def place : Walk Nat := fun _ c => Part.some (.ok c.place, c)

/-- A problem at a token, which breaks the walk off. -/
def fail (problem : SyntaxProblem) (t : Token) : Walk α := fun _ c =>
  Part.some (.error (.fault ⟨problem, t.position⟩), c)

def noted : Walk (List SyntaxFault) := fun _ c => Part.some (.ok c.faults, c)

def note (f : SyntaxFault) : Walk Unit := fun _ c => Part.some (.ok (), c.noting f)

def move (m : Move) : Walk Unit := fun _ c => Part.some (.ok (), c.moving m)

/-- The walk goes on after a fault. -/
def recover (x : Walk α) (handler : SyntaxFault → Walk α) : Walk α := fun row c =>
  (x row c).bind fun
    | (.error (.fault f), c') => handler f row c'
    | answer => Part.some answer

/-- What a loop comes to from here: its answer, or what it goes on with after a round.  There is a
round if the next token passes the test, and it may leave the loop.  One that breaks the walk off
leaves the loop as well. -/
def loopStep (l : Loop) (test : TokenKind → Bool) (round : σ → Walk (ForInStep σ)) (row : Row)
    (s : σ × Cursor) : Part ((Except Halt σ × Cursor) ⊕ (σ × Cursor)) :=
  if test (row.token s.2.place).kind then
    (round s.1 row s.2).map fun
      | (.ok (.yield s'), c') => .inr (s', c'.moving (.round l s.2.place c'.place true))
      | (.ok (.done s'), c') => .inl (.ok s', c'.moving (.round l s.2.place c'.place false))
      | (.error e, c') => .inl (.error e, c'.moving (.round l s.2.place c'.place false))
  else Part.some (.inl (.ok s.1, s.2))

/-- Goes through a loop round by round, for as long as it may be. -/
def loop (l : Loop) (test : TokenKind → Bool) (round : σ → Walk (ForInStep σ)) (s : σ) : Walk σ :=
  fun row c => PFun.fix (loopStep l test round row) (s, c)

def expectWhere (test : TokenKind → Bool) (problem : SyntaxProblem) : Walk Token := do
  let t ← next
  if test t.kind then advance else fail problem t

def expect (kind : TokenKind) (problem : SyntaxProblem) : Walk Token :=
  expectWhere (· == kind) problem

def expectName (problem : SyntaxProblem) : Walk Token := expectWhere TokenKind.isName problem

def ofNumeral (r : Except NumeralFault α) : Walk α := fun _ c =>
  match r with
  | .ok a => Part.some (.ok a, c)
  | .error e => Part.some (.error (.broken e), c)

def ofShape (r : Except ShapeFault α) : Walk α := fun _ c =>
  match r with
  | .ok a => Part.some (.ok a, c)
  | .error e => Part.some (.error (.fault ⟨.shape e.problem, e.position⟩), c)

/-! ### Decorators -/

/-- A default without its parentheses. -/
def defaultValue : Walk Default := do
  let t ← next
  if t.kind = .numberLiteral then
    let _ ← advance
    let value ← ofNumeral (Literal.ofNumeral t.text)
    pure (.literal value)
  else if t.kind = .stringLiteral then
    let _ ← advance
    pure (.literal (.text t.text))
  else if t.kind = .identifier ∧ (t.text = "true" ∨ t.text = "false") then
    let _ ← advance
    pure (.literal (.bool (t.text == "true")))
  else if t.kind = .identifier then
    match Generator.ofName? t.text with
    | some g =>
      let _ ← advance
      let _ ← expect .openParen (.expectedCallParen t.text)
      let _ ← expect .closeParen (.unclosedCall t.text)
      pure (.call g)
    | none => fail (.invalidDefault t.text) t
  else fail (.invalidDefault t.text) t

def defaultArgument : Walk Default := do
  let _ ← expect .openParen .expectedDefaultParen
  let d ← defaultValue
  let _ ← expect .closeParen .unclosedDefault
  pure d

def relationKey : Walk (Option String) := do
  let t ← next
  if t.kind = .openParen then
    let _ ← advance
    let key ← expectName .expectedForeignKey
    let _ ← expect .closeParen .unclosedForeignKey
    pure (some key.text)
  else pure none

/-- The decorator of a name. -/
def decoratorNamed (t : Token) : Walk Decorator :=
  match RelationKind.ofName? t.text with
  | some kind => do
    let key ← relationKey
    pure (.relation ⟨kind, key⟩)
  | none =>
    if t.text = "primary_key" then pure .primaryKey
    else if t.text = "unique" then pure .unique
    else if t.text = "required" then pure .required
    else if t.text = "default" then do
      let d ← defaultArgument
      pure (.default d)
    else fail (.unknownDecorator t.text) t

/-- A decorator after its sign, given the keys of those before it; and the key that it adds. -/
def decorator (seen : List String) : Walk (String × Decorator) := do
  let t ← expect .identifier .expectedDecorator
  if seen.contains (decoratorKey t.text) then fail (.duplicateDecorator t.text) t
  else
    let d ← decoratorNamed t
    pure (decoratorKey t.text, d)

/-- One decorator with its sign. -/
def decoratorRound (s : List String × List Decorator) :
    Walk (ForInStep (List String × List Decorator)) := do
  let _ ← advance
  let (key, d) ← decorator s.1
  pure (.yield (key :: s.1, s.2 ++ [d]))

def decorators : Walk (List Decorator) := do
  let s ← loop .decorators (· == .atSign) decoratorRound ([], [])
  pure s.2

/-! ### Fields -/

def arrayMark : Walk Bool := do
  let t ← next
  let u ← lookAt 1
  if t.kind = .openBracket ∧ u.kind = .closeBracket then
    let _ ← advance
    let _ ← advance
    pure true
  else pure false

def shape (isArray : Bool) : Walk Shape := do
  let t ← next
  if t.kind = .rawObject then
    let _ ← advance
    ofShape (Shape.ofText t.text t.position isArray)
  else fail .expectedShape t

/-- A type without the array mark that may follow it. -/
def plainType : Walk Reading.FieldType := do
  let t ← next
  if t.kind.isPrimitive ∨ t.kind = .identifier then
    let _ ← advance
    pure ⟨t.text, false, none⟩
  else if t.kind = .jsonType then
    let _ ← advance
    let isArray ← arrayMark
    let s ← shape isArray
    pure ⟨t.text, isArray, some s⟩
  else fail (.unexpectedType t.text) t

def field : Walk Field := do
  let name ← advance
  let type ← plainType
  let isArray ← arrayMark
  let ds ← decorators
  let f : Field :=
    { name := name.text
      typeName := type.typeName
      isArray := type.isArray || isArray
      shape := type.shape
      position := name.position }
  pure (ds.foldl Field.decorate f)

/-! ### Models -/

/-- One name of a composite block and the comma after it; a bracket leaves the loop. -/
def nameRound (names : List String) : Walk (ForInStep (List String)) := do
  let t ← expectName .expectedUniqueMember
  let u ← next
  if u.kind = .comma then
    let _ ← advance
    pure (.yield (names ++ [t.text]))
  else if u.kind = .closeBracket then pure (.done (names ++ [t.text]))
  else fail .expectedUniqueSeparator u

/-- The names of a `@@unique` block.  Only a bracket leaves the loop, and it is taken then. -/
def uniqueMembers : Walk (List String) := do
  let names ← loop .uniqueMembers (fun _ => true) nameRound []
  let _ ← expect .closeBracket .expectedUniqueSeparator
  pure names

/-- The arguments of a `@@unique` block. -/
def unique : Walk (List String) := do
  let _ ← expect .openParen .expectedUniqueParen
  let _ ← expect .openBracket .expectedUniqueBracket
  let names ← uniqueMembers
  let _ ← expect .closeParen .unclosedUnique
  pure names

/-- One token of the arguments of a block, given how many parentheses are open. -/
def argumentRound (depth : Int) : Walk (ForInStep Int) := do
  let t ← advance
  if t.kind = .openParen then pure (.yield (depth + 1))
  else if t.kind = .closeParen then
    if depth - 1 = 0 then pure (.done 0) else pure (.yield (depth - 1))
  else pure (.yield depth)

/-- Passes over the arguments of a block, if it has any. -/
def skipArguments : Walk Unit := do
  let t ← next
  if t.kind = .openParen then
    let _ ← loop .arguments (· != .endOfInput) argumentRound 0
    pure ()
  else pure ()

/-- One member of a model, or something that is noted and passed over. -/
def memberRound (name : String) (ms : List Reading.Member) :
    Walk (ForInStep (List Reading.Member)) := do
  let t ← next
  if t.kind.isName then
    let f ← field
    pure (.yield (ms ++ [.field f]))
  else if t.kind = .composite then
    let _ ← advance
    if t.text = "@@unique" then
      let names ← unique
      pure (.yield (ms ++ [.unique names]))
    else
      note ⟨.unsupportedBlock t.text, t.position⟩
      skipArguments
      pure (.yield ms)
  else if t.kind = .model then fail (.unclosedModel name) t
  else
    note ⟨.strayMember t.text, t.position⟩
    let _ ← advance
    pure (.yield ms)

/-- The members of a model up to the brace that closes it. -/
def members (name : String) : Walk (List Reading.Member) := do
  let ms ← loop .members (fun k => k != .closeBrace && k != .endOfInput) (memberRound name) []
  let _ ← expect .closeBrace (.unclosedModel name)
  pure ms

/-- The front of a model: its first token, its name, and the opening brace. -/
def modelHead : Walk (Token × Token) := do
  let first ← expect .model .expectedModel
  let name ← expect .identifier .expectedModelName
  let _ ← expect .openBrace .expectedModelBody
  pure (first, name)

def model : Walk Model := do
  let (first, name) ← modelHead
  let ms ← members name.text
  pure
    { name := name.text
      fields := ms.filterMap Reading.Member.field?
      uniques := ms.filterMap Reading.Member.unique?
      position := first.position }

/-! ### Schemas -/

/-- One token that is passed over. -/
def passRound (_ : Unit) : Walk (ForInStep Unit) := do
  let _ ← advance
  pure (.yield ())

/-- Passes over everything before the next token `model`. -/
def synchronize : Walk Unit := do
  let _ ← loop .recovery (fun k => k != .model && k != .endOfInput) passRound ()
  pure ()

/-- A model, or a fault that is noted and what comes before the next token `model`.  If the cursor
has not moved, the token that stands there is dropped. -/
def modelRound (ms : List Model) : Walk (ForInStep (List Model)) := do
  let start ← place
  let found ← recover
    (do let m ← model
        pure [m])
    fun f => do
      note f
      synchronize
      pure []
  let stop ← place
  if stop = start then
    move (.drop start)
    let t ← advance
    note ⟨.strayToken t.text, t.position⟩
    pure (.yield (ms ++ found))
  else pure (.yield (ms ++ found))

/-- The models of a row, and the faults that were noted. -/
def parsed : Walk Parsed := do
  let ms ← loop .models (· != .endOfInput) modelRound []
  let faults ← noted
  pure ⟨some ⟨ms⟩, faults⟩

/-- Reads a list of tokens from its beginning. -/
def run (ts : List Token) : Part (Except Halt Parsed × Cursor) :=
  match Row.ofList? ts with
  | none => Part.some (.ok ⟨none, []⟩, .start)
  | some row => parsed row .start

end Walk

end Schemata
