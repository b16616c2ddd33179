import Schemata.Diagnostic

/-!
# Tokens

The words and signs of the schema language.  A token has a kind, its text, and the place of its
first character; a list of tokens to be read ends in one of kind `endOfInput`.

Seven words name types of columns and one begins a model.  All but that one may also name a
field, a foreign key or a member of a composite block (`TokenKind.isName`).
-/

namespace Schemata

/-- What a token is. -/
inductive TokenKind where
  | model
  | intType
  | stringType
  | floatType
  | booleanType
  | jsonType
  | datetimeType
  | dateType
  | openBrace
  | closeBrace
  | openParen
  | closeParen
  | openBracket
  | closeBracket
  | comma
  | colon
  | atSign
  | composite
  | identifier
  | stringLiteral
  | numberLiteral
  | rawObject
  | endOfInput
  | unknown
  deriving DecidableEq, Repr, Inhabited

/-- A word, sign or literal of the source. -/
structure Token where
  kind : TokenKind
  text : String
  position : Position
  deriving DecidableEq, Repr, Inhabited

/-- The words with a meaning of their own. -/
def keywords : List (String × TokenKind) :=
  [("model", .model), ("int", .intType), ("string", .stringType), ("float", .floatType),
   ("boolean", .booleanType), ("json", .jsonType), ("datetime", .datetimeType),
   ("date", .dateType)]

/-- The kind of a word. -/
def TokenKind.ofWord (word : String) : TokenKind := (keywords.lookup word).getD .identifier

/-- A word that names a type of columns other than `json`. -/
def TokenKind.isPrimitive : TokenKind → Bool
  | .intType | .stringType | .floatType | .booleanType | .datetimeType | .dateType => true
  | _ => false

/-- What may name a field. -/
def TokenKind.isName (k : TokenKind) : Bool := k.isPrimitive || k = .jsonType || k = .identifier

/-- The signs that are a token on their own.  The opening brace is not among them, since it may
begin a raw block. -/
def TokenKind.ofSign? : Char → Option TokenKind
  | '}' => some .closeBrace
  | '(' => some .openParen
  | ')' => some .closeParen
  | '[' => some .openBracket
  | ']' => some .closeBracket
  | ',' => some .comma
  | ':' => some .colon
  | _ => none

/-- The names that a composite block may have. -/
def compositeBlocks : List String := ["unique", "index", "id"]

end Schemata
