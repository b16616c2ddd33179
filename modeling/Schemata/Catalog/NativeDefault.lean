import Schemata.Dialect
import Schemata.Text.Letter

/-!
# Catalogs — defaults

The default that a database's own expression stands for.  Both databases know expressions for
the present time and for unique identifiers, whatever their case.

* Postgres shows a counting column as a call of `nextval`, and a string between quotes with its
  type after it.  A number may stand in parentheses and may have its type after it.
* MySQL remarks on a counting column apart from its default, and may show a string without
  quotes.

A string that is a numeral is a number where the column holds numbers.  Any other expression is
kept as it is, as text.
-/

namespace Schemata

namespace NativeDefault

open Text

/-- A numeral at the front of a text, and the rest: perhaps a minus sign, digits, and perhaps a
point and digits. -/
def numeralPrefix? (cs : List Char) : Option (List Char × List Char) :=
  let sign := cs.takeWhile (· == '-')
  let cs := cs.dropWhile (· == '-')
  let whole := cs.takeWhile isDecimal
  if 1 < sign.length || whole.isEmpty then none
  else
    match cs.dropWhile isDecimal with
    | '.' :: rest =>
      let places := rest.takeWhile isDecimal
      if places.isEmpty then some (sign ++ whole, '.' :: rest)
      else some (sign ++ whole ++ '.' :: places, rest.dropWhile isDecimal)
    | rest => some (sign ++ whole, rest)

/-- A text without the newline it may end in. -/
def withoutNewline (cs : List Char) : List Char :=
  if cs.getLast? = some '\n' then cs.dropLast else cs

/-- Whether a text is a numeral. -/
def isNumeral (cs : List Char) : Bool :=
  match numeralPrefix? (withoutNewline cs) with
  | some (_, rest) => rest.isEmpty
  | none => false

/-- Whether a text is nothing, or names a type after a double colon. -/
def isCast : List Char → Bool
  | [] => true
  | ':' :: ':' :: cs => !cs.isEmpty && cs.all fun c => isWord c || c == ' '
  | _ => false

/-- The text without a character at its front. -/
def without? (c : Char) : List Char → List Char
  | d :: cs => if d = c then cs else d :: cs
  | [] => []

/-- The numeral that an expression consists of, parentheses and a type aside. -/
def numeral? (cs : List Char) : Option (List Char) :=
  match numeralPrefix? (without? '(' cs) with
  | some (digits, rest) => if isCast (without? ')' rest) then some digits else none
  | none => none

/-- The text with every doubled quote made single. -/
def undoubled : List Char → List Char
  | [] => []
  | '\'' :: '\'' :: cs => '\'' :: undoubled cs
  | c :: cs => c :: undoubled cs

/-- What stands before the last quote that a double colon follows. -/
def beforeCast? : List Char → Option (List Char)
  | [] => none
  | c :: cs =>
    match beforeCast? cs with
    | some before => some (c :: before)
    | none => if ['\'', ':', ':'].isPrefixOf (c :: cs) then some [] else none

/-- The inside of the quotes of an expression that is a string with its type after it. -/
def castString? : List Char → Option (List Char)
  | '\'' :: cs => beforeCast? cs
  | _ => none

/-- A string as a default of a column: a number, if it is a numeral and the column holds
numbers. -/
def typedLiteral (text : List Char) (typeName : String) : Except NumeralFault Literal :=
  if (typeName == Scalar.int.name || typeName == Scalar.float.name) && isNumeral text then
    Literal.ofNumeral (String.ofList text)
  else .ok (.text (String.ofList text))

/-- What the expressions for the present time begin with. -/
def nowForms : List String := ["now()", "current_timestamp", "localtimestamp"]

/-- The expressions for unique identifiers. -/
def uuidForms : List String := ["gen_random_uuid()", "uuid_generate_v4()", "uuid()"]

def isNow (lowered : String) : Bool :=
  nowForms.any fun form => form.toList.isPrefixOf lowered.toList

/-- Whether `part` stands anywhere in a text. -/
def occursIn (part : List Char) : List Char → Bool
  | [] => part.isEmpty
  | c :: cs => part.isPrefixOf (c :: cs) || occursIn part cs

end NativeDefault

open NativeDefault Text

/-- The default of a Postgres expression in a column of a type. -/
def postgresDefault (raw : Option String) (typeName : String) :
    Except NumeralFault (Option Default) :=
  match raw.filter (· != "") with
  | none => .ok none
  | some raw =>
    let expression := strip raw
    let lowered := lower expression
    if "nextval(".toList.isPrefixOf lowered.toList then .ok (some (.call .autoincrement))
    else if lowered == "true" || lowered == "false" then
      .ok (some (.literal (.bool (lowered == "true"))))
    else
      match numeral? expression.toList, castString? expression.toList with
      | some digits, _ => (Literal.ofNumeral (String.ofList digits)).map (some <| .literal ·)
      | none, some inside => (typedLiteral (undoubled inside) typeName).map (some <| .literal ·)
      | none, none =>
        if isNow lowered then .ok (some (.call .now))
        else if uuidForms.contains lowered then .ok (some (.call .uuid))
        else .ok (some (.literal (.text expression)))

/-- The inside of the quotes around a text, with every doubled quote made single; a text that is
not between quotes is itself. -/
def unquotedString (cs : List Char) : List Char :=
  match cs with
  | '\'' :: rest =>
    if rest.getLast? = some '\'' then undoubled rest.dropLast else cs
  | _ => cs

/-- The default of a MySQL expression and remark in a column of a type. -/
def mysqlDefault (raw : Option String) (extra typeName : String) :
    Except NumeralFault (Option Default) :=
  if occursIn "auto_increment".toList (lower extra).toList then
    .ok (some (.call .autoincrement))
  else
    match raw with
    | none => .ok none
    | some raw =>
      let expression := strip raw
      let lowered := lower expression
      if isNow lowered then .ok (some (.call .now))
      else if uuidForms.contains lowered || lowered == "(uuid())" then
        .ok (some (.call .uuid))
      else if typeName == Scalar.boolean.name && ["0", "1", "true", "false"].contains lowered then
        .ok (some (.literal (.bool (lowered == "1" || lowered == "true"))))
      else
        (typedLiteral (unquotedString expression.toList) typeName).map (some <| .literal ·)

end Schemata
