import Schemata.Schema
import Schemata.Shape.Reading
import Schemata.Token

/-!
# Schemas — reading

Reading models from tokens.  The grammar:

* a schema is a row of models;
* a model is `model`, a name, and in braces its members: fields, and blocks `@@unique` with
  names in brackets inside parentheses;
* a field is a name, a type, perhaps an array mark, and decorators; the type is a scalar, the
  name of a model, or `json` with an array mark perhaps and a block that gives the shape;
* a decorator is `@` with the kind of a relation and perhaps a key in parentheses, with
  `primary_key`, `unique`, `required`, or with `default` and a value in parentheses.

A rule takes tokens and answers a `Reading`: a value, or a `SyntaxFault`, both with the tokens
that are left; or the numeral that stands for no number, which ends the reading altogether.
After a fault the reading goes on at the next token `model` (`synchronize`), so every broken
model is reported and every other one is read.  Some faults inside a model do not break it: they
are noted and the model is read on (`Noted`).

The tokens are those before the first end of the input, so no rule can read past it; the end
itself is only looked at, for its place and its text (`Tokens.stop`).
-/

namespace Schemata

/-- What is wrong with a row of tokens. -/
inductive SyntaxProblem where
  | expectedModel
  | expectedModelName
  | expectedModelBody
  | unclosedModel (name : String)
  | strayToken (text : String)
  | strayMember (text : String)
  | unsupportedBlock (text : String)
  | expectedUniqueParen
  | expectedUniqueBracket
  | expectedUniqueMember
  | expectedUniqueSeparator
  | unclosedUnique
  | expectedShape
  | unexpectedType (text : String)
  | expectedDecorator
  | duplicateDecorator (name : String)
  | unknownDecorator (name : String)
  | expectedForeignKey
  | unclosedForeignKey
  | expectedDefaultParen
  | invalidDefault (text : String)
  | expectedCallParen (name : String)
  | unclosedCall (name : String)
  | unclosedDefault
  | shape (problem : ShapeProblem)
  deriving DecidableEq, Repr

def SyntaxProblem.message : SyntaxProblem → String
  | .expectedModel => "Expected 'model' keyword"
  | .expectedModelName => "Expected model name"
  | .expectedModelBody => "Expected '\x7b' after model name"
  | .unclosedModel name => s!"Expected '\x7d' to close model '{name}'"
  | .strayToken text => s!"Unexpected token '{text}'"
  | .strayMember text => s!"Unexpected token '{text}' inside model"
  | .unsupportedBlock text => s!"Unsupported composite block '{text}'"
  | .expectedUniqueParen => "Expected '(' after @@unique"
  | .expectedUniqueBracket => "Expected '[' after @@unique("
  | .expectedUniqueMember => "Expected field name in @@unique"
  | .expectedUniqueSeparator => "Expected ',' or ']' in @@unique"
  | .unclosedUnique => "Expected ')' after @@unique"
  | .expectedShape => "Expected json type block after 'json'"
  | .unexpectedType text => s!"Unexpected type '{text}'"
  | .expectedDecorator => "Expected decorator name"
  | .duplicateDecorator name => s!"Duplicate decorator '@{name}'"
  | .unknownDecorator name => s!"Unknown decorator '@{name}'"
  | .expectedForeignKey => "Expected foreign key"
  | .unclosedForeignKey => "Expected ')' after foreign key"
  | .expectedDefaultParen => "Expected '(' after @default"
  | .invalidDefault text => s!"Invalid default value '{text}'"
  | .expectedCallParen name => s!"Expected '(' after {name}"
  | .unclosedCall name => s!"Expected ')' after {name}("
  | .unclosedDefault => "Expected ')' after @default value"
  | .shape problem => problem.message

/-- What is wrong with a row of tokens, and where. -/
structure SyntaxFault where
  problem : SyntaxProblem
  position : Position
  deriving DecidableEq, Repr

def SyntaxFault.diagnostic (f : SyntaxFault) : Diagnostic :=
  ⟨.grammar, f.problem.message, f.position⟩

/-- The tokens to be read: those before the end of the input, and the end. -/
structure Tokens where
  body : List Token
  stop : Token

/-- The tokens of a list.  A list that does not end in the end of the input ends where its last
token stands; an empty list holds nothing to be read. -/
def Tokens.ofList? (ts : List Token) : Option Tokens :=
  ts.getLast?.map fun last =>
    { body := ts.takeWhile fun t => t.kind != .endOfInput
      stop := (ts.find? fun t => t.kind == .endOfInput).getD ⟨.endOfInput, "", last.position⟩ }

/-- What a rule makes of tokens. -/
inductive Reading (α : Type) where
  | read (value : α) (rest : List Token)
  | fault (fault : SyntaxFault) (rest : List Token)
  | broken (fault : NumeralFault)

/-- A rule of the grammar, given the end of the input. -/
def Rule (α : Type) : Type := Token → List Token → Reading α

namespace Rule

variable {α β : Type}

protected def pure (a : α) : Rule α := fun _ ts => .read a ts

protected def bind (r : Rule α) (f : α → Rule β) : Rule β := fun stop ts =>
  match r stop ts with
  | .read a rest => f a stop rest
  | .fault e rest => .fault e rest
  | .broken e => .broken e

instance : Monad Rule where
  pure := Rule.pure
  bind := Rule.bind

/-- The token that comes next; it is not taken. -/
def peek : Rule Token := fun stop ts => .read (ts.head?.getD stop) ts

/-- Takes the token that comes next. -/
def skip : Rule Unit := fun _ ts => .read () ts.tail

/-- A problem at a token. -/
def fail (problem : SyntaxProblem) (t : Token) : Rule α := fun _ ts =>
  .fault ⟨problem, t.position⟩ ts

/-- Takes a token that passes a test. -/
def expectWhere (test : TokenKind → Bool) (problem : SyntaxProblem) : Rule Token := do
  let t ← peek
  if test t.kind then skip; pure t else fail problem t

/-- Takes a token of a kind. -/
def expect (kind : TokenKind) (problem : SyntaxProblem) : Rule Token :=
  expectWhere (· == kind) problem

/-- Takes a name. -/
def expectName (problem : SyntaxProblem) : Rule Token := expectWhere TokenKind.isName problem

/-- A number that may not be one. -/
def ofNumeral (r : Except NumeralFault α) : Rule α := fun _ ts =>
  match r with
  | .ok a => .read a ts
  | .error e => .broken e

/-- A rule that leaves no more tokens than it was given. -/
def Shrinks (r : Rule α) : Prop :=
  ∀ stop ts a rest, r stop ts = .read a rest → rest.length ≤ ts.length

theorem shrinks_pure (a : α) : Shrinks (pure a) := by
  intro stop ts b rest h
  cases h
  exact Nat.le_refl _

theorem shrinks_bind {r : Rule α} {f : α → Rule β} (hr : Shrinks r) (hf : ∀ a, Shrinks (f a)) :
    Shrinks (r >>= f) := by
  intro stop ts b rest h
  change Rule.bind r f stop ts = _ at h
  unfold Rule.bind at h
  split at h
  next a mid hmid => exact Nat.le_trans (hf a _ _ _ _ h) (hr _ _ _ _ hmid)
  next => cases h
  next => cases h

theorem shrinks_ite {p : Prop} [Decidable p] {r q : Rule α} (hr : Shrinks r) (hq : Shrinks q) :
    Shrinks (if p then r else q) := by
  split <;> assumption

theorem shrinks_peek : Shrinks peek := by
  intro stop ts a rest h
  cases h
  exact Nat.le_refl _

theorem shrinks_skip : Shrinks skip := by
  intro stop ts a rest h
  cases h
  simp

theorem shrinks_fail (problem : SyntaxProblem) (t : Token) : Shrinks (fail (α := α) problem t) := by
  intro stop ts a rest h
  cases h

theorem shrinks_expectWhere (test : TokenKind → Bool) (problem : SyntaxProblem) :
    Shrinks (expectWhere test problem) :=
  shrinks_bind shrinks_peek fun t =>
    shrinks_ite (shrinks_bind shrinks_skip fun _ => shrinks_pure t) (shrinks_fail problem t)

theorem shrinks_expect (kind : TokenKind) (problem : SyntaxProblem) :
    Shrinks (expect kind problem) := shrinks_expectWhere _ _

theorem shrinks_ofNumeral (r : Except NumeralFault α) : Shrinks (ofNumeral r) := by
  intro stop ts a rest h
  unfold ofNumeral at h
  split at h
  · cases h
    exact Nat.le_refl _
  · cases h

end Rule

/-! ### Decorators -/

/-- What a decorator says about its field. -/
inductive Decorator where
  | primaryKey
  | unique
  | required
  | default (value : Default)
  | relation (relation : Relation)

/-- A field with what a decorator says. -/
def Field.decorate (f : Field) : Decorator → Field
  | .primaryKey => { f with isPrimaryKey := true }
  | .unique => { f with isUnique := true }
  | .required => { f with isRequired := true }
  | .default d => { f with default := some d }
  | .relation r => { f with relation := some r }

/-- What may stand only once on a field: a decorator of one name, or a relation of any kind. -/
def decoratorKey (name : String) : String :=
  if (RelationKind.ofName? name).isSome then "relation" else name

namespace Reading

open Rule

/-- A default without its parentheses. -/
def defaultValue : Rule Default := do
  let t ← peek
  if t.kind = .numberLiteral then
    skip
    let value ← ofNumeral (Literal.ofNumeral t.text)
    pure (.literal value)
  else if t.kind = .stringLiteral then
    skip
    pure (.literal (.text t.text))
  else if t.kind = .identifier ∧ (t.text = "true" ∨ t.text = "false") then
    skip
    pure (.literal (.bool (t.text == "true")))
  else
    match t.kind, Generator.ofName? t.text with
    | .identifier, some g =>
      skip
      let _ ← expect .openParen (.expectedCallParen t.text)
      let _ ← expect .closeParen (.unclosedCall t.text)
      pure (.call g)
    | _, _ => fail (.invalidDefault t.text) t

/-- A default in its parentheses. -/
def defaultArgument : Rule Default := do
  let _ ← expect .openParen .expectedDefaultParen
  let d ← defaultValue
  let _ ← expect .closeParen .unclosedDefault
  pure d

/-- The key of a relation in its parentheses, if there is one. -/
def relationKey : Rule (Option String) := do
  let t ← peek
  if t.kind = .openParen then
    skip
    let key ← expectName .expectedForeignKey
    let _ ← expect .closeParen .unclosedForeignKey
    pure (some key.text)
  else pure none

/-- The decorator of a name. -/
def decoratorNamed (t : Token) : Rule Decorator :=
  match RelationKind.ofName? t.text with
  | some kind => do
    let key ← relationKey
    pure (.relation ⟨kind, key⟩)
  | none =>
    if t.text = "primary_key" then pure .primaryKey
    else if t.text = "unique" then pure .unique
    else if t.text = "required" then pure .required
    else if t.text = "default" then do
      let d ← defaultArgument
      pure (.default d)
    else fail (.unknownDecorator t.text) t

/-- A decorator after its sign, given what stands on the field already; and what it adds. -/
def decorator (seen : List String) : Rule (String × Decorator) := do
  let t ← expect .identifier .expectedDecorator
  if seen.contains (decoratorKey t.text) then fail (.duplicateDecorator t.text) t
  else
    let d ← decoratorNamed t
    pure (decoratorKey t.text, d)

theorem shrinks_defaultValue : Shrinks defaultValue := by
  refine shrinks_bind shrinks_peek fun t => shrinks_ite ?_ (shrinks_ite ?_ (shrinks_ite ?_ ?_))
  · exact shrinks_bind shrinks_skip fun _ => shrinks_bind (shrinks_ofNumeral _) fun _ =>
      shrinks_pure _
  · exact shrinks_bind shrinks_skip fun _ => shrinks_pure _
  · exact shrinks_bind shrinks_skip fun _ => shrinks_pure _
  · split
    · exact shrinks_bind shrinks_skip fun _ => shrinks_bind (shrinks_expect _ _) fun _ =>
        shrinks_bind (shrinks_expect _ _) fun _ => shrinks_pure _
    · exact shrinks_fail _ _

theorem shrinks_defaultArgument : Shrinks defaultArgument :=
  shrinks_bind (shrinks_expect _ _) fun _ => shrinks_bind shrinks_defaultValue fun _ =>
    shrinks_bind (shrinks_expect _ _) fun _ => shrinks_pure _

theorem shrinks_relationKey : Shrinks relationKey :=
  shrinks_bind shrinks_peek fun _ => shrinks_ite
    (shrinks_bind shrinks_skip fun _ => shrinks_bind (shrinks_expectWhere _ _) fun _ =>
      shrinks_bind (shrinks_expect _ _) fun _ => shrinks_pure _)
    (shrinks_pure _)

theorem shrinks_decoratorNamed (t : Token) : Shrinks (decoratorNamed t) := by
  unfold decoratorNamed
  split
  · exact shrinks_bind shrinks_relationKey fun _ => shrinks_pure _
  · exact shrinks_ite (shrinks_pure _) (shrinks_ite (shrinks_pure _) (shrinks_ite (shrinks_pure _)
      (shrinks_ite (shrinks_bind shrinks_defaultArgument fun _ => shrinks_pure _)
        (shrinks_fail _ _))))

theorem shrinks_decorator (seen : List String) : Shrinks (decorator seen) :=
  shrinks_bind (shrinks_expect _ _) fun t => shrinks_ite (shrinks_fail _ _)
    (shrinks_bind (shrinks_decoratorNamed t) fun _ => shrinks_pure _)

/-- The decorators of a field, given what stands on it already. -/
def decorators (seen : List String) (stop : Token) (ts : List Token) : Reading (List Decorator) :=
  match ts with
  | [] => .read [] []
  | t :: rest =>
    if t.kind = .atSign then
      match h : decorator seen stop rest with
      | .read (key, d) rest' =>
        have : rest'.length < (t :: rest).length :=
          Nat.lt_succ_of_le (shrinks_decorator seen _ _ _ _ h)
        match decorators (key :: seen) stop rest' with
        | .read ds rest'' => .read (d :: ds) rest''
        | .fault e rest'' => .fault e rest''
        | .broken e => .broken e
      | .fault e rest' => .fault e rest'
      | .broken e => .broken e
    else .read [] (t :: rest)
termination_by ts.length
decreasing_by assumption

theorem shrinks_decorators (seen : List String) : Shrinks (decorators seen) := by
  intro stop ts
  fun_induction decorators seen stop ts with
  | case1 => intro ds rest h; cases h; exact Nat.le_refl _
  | case2 seen t ts _ key d mid hd hlt _ _ hds ih =>
    intro ds rest h
    cases h
    have := ih _ _ hds
    omega
  | case3 | case4 | case5 | case6 => intro ds rest h; cases h
  | case7 => intro ds rest h; cases h; exact Nat.le_refl _

/-! ### Fields -/

/-- Whether an array mark comes next; if it does, it is taken. -/
def arrayMark : Rule Bool := fun _ ts =>
  match ts with
  | a :: b :: rest =>
    if a.kind = .openBracket ∧ b.kind = .closeBracket then .read true rest
    else .read false (a :: b :: rest)
  | ts => .read false ts

/-- The type of a field: its name, whether it is an array, and the shape of a `json` field. -/
structure FieldType where
  typeName : String
  isArray : Bool
  shape : Option Shape

/-- The shape that follows `json`. -/
def shape (isArray : Bool) : Rule Shape := do
  let t ← peek
  if t.kind = .rawObject then
    skip
    match Shape.ofText t.text t.position isArray with
    | .ok s => pure s
    | .error e => fun _ ts => .fault ⟨.shape e.problem, e.position⟩ ts
  else fail .expectedShape t

/-- A type without the array mark that may follow it. -/
def plainType : Rule FieldType := do
  let t ← peek
  if t.kind.isPrimitive ∨ t.kind = .identifier then
    skip
    pure ⟨t.text, false, none⟩
  else if t.kind = .jsonType then
    skip
    let isArray ← arrayMark
    let s ← shape isArray
    pure ⟨t.text, isArray, some s⟩
  else fail (.unexpectedType t.text) t

/-- A field whose name has been taken. -/
def fieldNamed (name : Token) : Rule Field := do
  let type ← plainType
  let isArray ← arrayMark
  let ds ← decorators []
  let field : Field :=
    { name := name.text
      typeName := type.typeName
      isArray := type.isArray || isArray
      shape := type.shape
      position := name.position }
  pure (ds.foldl Field.decorate field)

theorem shrinks_arrayMark : Shrinks arrayMark := by
  intro stop ts a rest h
  unfold arrayMark at h
  split at h
  · split at h
    · cases h
      simp
      omega
    · cases h
      simp
  · cases h
    exact Nat.le_refl _

theorem shrinks_shape (isArray : Bool) : Shrinks (shape isArray) := by
  refine shrinks_bind shrinks_peek fun t => shrinks_ite (shrinks_bind shrinks_skip fun _ => ?_)
    (shrinks_fail _ _)
  split
  · exact shrinks_pure _
  · intro stop ts a rest h
    cases h

theorem shrinks_plainType : Shrinks plainType :=
  shrinks_bind shrinks_peek fun _ => shrinks_ite
    (shrinks_bind shrinks_skip fun _ => shrinks_pure _)
    (shrinks_ite
      (shrinks_bind shrinks_skip fun _ => shrinks_bind shrinks_arrayMark fun _ =>
        shrinks_bind (shrinks_shape _) fun _ => shrinks_pure _)
      (shrinks_fail _ _))

theorem shrinks_fieldNamed (name : Token) : Shrinks (fieldNamed name) :=
  shrinks_bind shrinks_plainType fun _ => shrinks_bind shrinks_arrayMark fun _ =>
    shrinks_bind (shrinks_decorators []) fun _ => shrinks_pure _

/-! ### Models -/

/-- The names of a `@@unique` block up to its closing bracket. -/
def uniqueMembers (stop : Token) : List Token → Reading (List String)
  | [] => .fault ⟨.expectedUniqueMember, stop.position⟩ []
  | t :: ts =>
    if t.kind.isName then
      match ts with
      | [] => .fault ⟨.expectedUniqueSeparator, stop.position⟩ []
      | u :: us =>
        if u.kind = .comma then
          match uniqueMembers stop us with
          | .read names rest => .read (t.text :: names) rest
          | .fault e rest => .fault e rest
          | .broken e => .broken e
        else if u.kind = .closeBracket then .read [t.text] us
        else .fault ⟨.expectedUniqueSeparator, u.position⟩ (u :: us)
    else .fault ⟨.expectedUniqueMember, t.position⟩ (t :: ts)

/-- The arguments of a `@@unique` block. -/
def unique : Rule (List String) := do
  let _ ← expect .openParen .expectedUniqueParen
  let _ ← expect .openBracket .expectedUniqueBracket
  let names ← uniqueMembers
  let _ ← expect .closeParen .unclosedUnique
  pure names

theorem shrinks_uniqueMembers : Shrinks uniqueMembers := by
  intro stop ts
  fun_induction uniqueMembers stop ts with
  | case3 t _ u us _ names rest heq ih =>
    intro ds rest' h
    cases h
    have := ih _ _ heq
    simp
    omega
  | case6 t _ u us _ _ =>
    intro ds rest' h
    cases h
    simp
    omega
  | case1 | case2 | case4 | case5 | case7 | case8 => intro ds rest' h; cases h

theorem shrinks_unique : Shrinks unique :=
  shrinks_bind (shrinks_expect _ _) fun _ => shrinks_bind (shrinks_expect _ _) fun _ =>
    shrinks_bind shrinks_uniqueMembers fun _ => shrinks_bind (shrinks_expect _ _) fun _ =>
      shrinks_pure _

/-- What is left after the parenthesis that closes the last of `depth` open ones. -/
def afterParens (depth : Nat) : List Token → List Token
  | [] => []
  | t :: ts =>
    if t.kind = .openParen then afterParens (depth + 1) ts
    else if t.kind = .closeParen then if depth ≤ 1 then ts else afterParens (depth - 1) ts
    else afterParens depth ts

/-- What is left after the arguments of a block, if it has any. -/
def afterArguments : List Token → List Token
  | [] => []
  | t :: ts => if t.kind = .openParen then afterParens 1 ts else t :: ts

theorem afterParens_length (depth : Nat) (ts : List Token) :
    (afterParens depth ts).length ≤ ts.length := by
  fun_induction afterParens depth ts <;> simp_all <;> omega

theorem afterArguments_length (ts : List Token) : (afterArguments ts).length ≤ ts.length := by
  unfold afterArguments
  split
  · simp
  · split
    · exact Nat.le_succ_of_le (afterParens_length _ _)
    · exact Nat.le_refl _

/-- A member of a model. -/
inductive Member where
  | field (field : Field)
  | unique (names : List String)

/-- A reading, with the faults that were noted on the way and did not end it. -/
structure Noted (α : Type) where
  faults : List SyntaxFault
  reading : Reading α

/-- The same reading with an earlier fault. -/
def Noted.after {α : Type} (n : Noted α) (e : SyntaxFault) : Noted α :=
  { n with faults := e :: n.faults }

/-- The same reading with an earlier member. -/
def Noted.cons (m : Member) (n : Noted (List Member)) : Noted (List Member) :=
  match n.reading with
  | .read ms rest => ⟨n.faults, .read (m :: ms) rest⟩
  | .fault e rest => ⟨n.faults, .fault e rest⟩
  | .broken e => ⟨n.faults, .broken e⟩

/-- The members of a model up to the brace that closes it. -/
def members (name : String) (stop : Token) (ts : List Token) : Noted (List Member) :=
  match ts with
  | [] => ⟨[], .fault ⟨.unclosedModel name, stop.position⟩ []⟩
  | t :: rest =>
    if t.kind = .closeBrace then ⟨[], .read [] rest⟩
    else if t.kind.isName then
      match h : fieldNamed t stop rest with
      | .read f rest' =>
        have : rest'.length < (t :: rest).length :=
          Nat.lt_succ_of_le (shrinks_fieldNamed t _ _ _ _ h)
        (members name stop rest').cons (.field f)
      | .fault e rest' => ⟨[], .fault e rest'⟩
      | .broken e => ⟨[], .broken e⟩
    else if t.kind = .composite then
      if t.text = "@@unique" then
        match h : unique stop rest with
        | .read names rest' =>
          have : rest'.length < (t :: rest).length :=
            Nat.lt_succ_of_le (shrinks_unique _ _ _ _ h)
          (members name stop rest').cons (.unique names)
        | .fault e rest' => ⟨[], .fault e rest'⟩
        | .broken e => ⟨[], .broken e⟩
      else
        have : (afterArguments rest).length < (t :: rest).length :=
          Nat.lt_succ_of_le (afterArguments_length rest)
        (members name stop (afterArguments rest)).after ⟨.unsupportedBlock t.text, t.position⟩
    else if t.kind = .model then ⟨[], .fault ⟨.unclosedModel name, t.position⟩ (t :: rest)⟩
    else
      have : rest.length < (t :: rest).length := Nat.lt_succ_self _
      (members name stop rest).after ⟨.strayMember t.text, t.position⟩
termination_by ts.length
decreasing_by all_goals assumption

/-- The front of a model: its first token, its name, and the opening brace. -/
def modelHead : Rule (Token × Token) := do
  let first ← expect .model .expectedModel
  let name ← expect .identifier .expectedModelName
  let _ ← expect .openBrace .expectedModelBody
  pure (first, name)

def Member.field? : Member → Option Field
  | .field f => some f
  | .unique _ => none

def Member.unique? : Member → Option (List String)
  | .field _ => none
  | .unique names => some names

/-- A model. -/
def model (stop : Token) (ts : List Token) : Noted Model :=
  match modelHead stop ts with
  | .read (first, name) rest =>
    match members name.text stop rest with
    | ⟨faults, .read ms rest'⟩ =>
      ⟨faults, .read
        { name := name.text
          fields := ms.filterMap Member.field?
          uniques := ms.filterMap Member.unique?
          position := first.position } rest'⟩
    | ⟨faults, .fault e rest'⟩ => ⟨faults, .fault e rest'⟩
    | ⟨faults, .broken e⟩ => ⟨faults, .broken e⟩
  | .fault e rest => ⟨[], .fault e rest⟩
  | .broken e => ⟨[], .broken e⟩

/-- What is left from the next token `model` on. -/
def synchronize (ts : List Token) : List Token := ts.dropWhile fun t => t.kind != .model

end Reading

/-! ### Schemas -/

/-- The outcome of reading: the schema of all models that could be read, which is missing only
if there was nothing to be read, and the faults in the order they were found. -/
structure Parsed where
  schema : Option Schema
  faults : List SyntaxFault

namespace Parsed

def isFatal (p : Parsed) : Bool := p.schema.isNone

def isOk (p : Parsed) : Bool := !p.isFatal && p.faults.isEmpty

end Parsed

/-- The models of a row of tokens, and the faults in the others. -/
def Reading.models (stop : Token) (ts : List Token) :
    Except NumeralFault (List Model × List SyntaxFault) :=
  match ts with
  | [] => .ok ([], [])
  | t :: rest =>
    let next (found : List Model) (faults : List SyntaxFault) (left : List Token) :
        Except NumeralFault (List Model × List SyntaxFault) :=
      if left.length < (t :: rest).length then
        match Reading.models stop left with
        | .ok (ms, es) => .ok (found ++ ms, faults ++ es)
        | .error e => .error e
      else
        match Reading.models stop rest with
        | .ok (ms, es) =>
          .ok (found ++ ms, faults ++ ⟨.strayToken t.text, t.position⟩ :: es)
        | .error e => .error e
    match Reading.model stop (t :: rest) with
    | ⟨faults, .read m left⟩ => next [m] faults left
    | ⟨faults, .fault e left⟩ => next [] (faults ++ [e]) (Reading.synchronize left)
    | ⟨_, .broken e⟩ => .error e
termination_by ts.length
decreasing_by
  · assumption
  · exact Nat.lt_succ_self _

/-- The schema that tokens write. -/
def Schema.ofTokens (ts : List Token) : Except NumeralFault Parsed :=
  match Tokens.ofList? ts with
  | none => .ok ⟨none, []⟩
  | some tokens =>
    (Reading.models tokens.stop tokens.body).map fun (ms, es) => ⟨some ⟨ms⟩, es⟩

end Schemata
