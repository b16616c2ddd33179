import Schemata.Number.Numeral
import Schemata.Text.Split
import Schemata.Toml

/-!
# Settings — values

What a value of a document says as a setting.  Values are taken generously where no doubt can be
about what is meant: a truth value may be written as a number or a word, an integer as a text or
as a number that happens to be whole.

A text writes an integer with a sign or without, with zeroes in front of a positive one, single
underscores between the digits, and a point with nothing but zeroes after it.  It is read up to as
many digits as a numeral may have.
-/

namespace Schemata

-- Powers of whole numbers are the ones of the core library, whichever algebra is imported.
attribute [local instance (high)] instPowNat

/-- What is wrong with a setting. -/
inductive SettingProblem where
  | unknown
  | notText
  | noTruthWord
  | notTruth
  | noIntegerText
  | tooLarge
  | notWhole
  | notFinite
  | notInteger
  | notPositive
  deriving DecidableEq, Repr

def SettingProblem.code : SettingProblem → String
  | .unknown => "extra_forbidden"
  | .notText => "string_type"
  | .noTruthWord => "bool_parsing"
  | .notTruth => "bool_type"
  | .noIntegerText => "int_parsing"
  | .tooLarge => "int_parsing_size"
  | .notWhole => "int_from_float"
  | .notFinite => "finite_number"
  | .notInteger => "int_type"
  | .notPositive => "greater_than"

namespace Setting

/-- A text. -/
def text : Toml.Value → Except SettingProblem String
  | .text s => .ok s
  | _ => .error .notText

def trueWords : List String := ["1", "on", "t", "true", "y", "yes"]

def falseWords : List String := ["0", "off", "f", "false", "n", "no"]

/-- An integer of 64 bits. -/
def isWord (n : Int) : Bool := -2 ^ (63 : Nat) ≤ n && n < 2 ^ (63 : Nat)

/-- A truth value that is written as an integer. -/
def truthOfInt (n : Int) : Except SettingProblem Bool :=
  if n = 0 then .ok false
  else if n = 1 then .ok true
  else if isWord n then .error .noTruthWord
  else .error .notTruth

/-- The integer that a number is.  It has to be less than 2⁶³, whatever its sign. -/
def whole : Binary64 → Except SettingProblem Int
  | .infinite _ => .error .notFinite
  | .finite negative ticks =>
    if ticks % Binary64.ticksPerUnit = 0 then
      let n : Int := ticks / Binary64.ticksPerUnit
      if n < 2 ^ (63 : Nat) then .ok (if negative then -n else n) else .error .tooLarge
    else .error .notWhole

/-- A truth value. -/
def truth : Toml.Value → Except SettingProblem Bool
  | .boolean b => .ok b
  | .integer n => truthOfInt n
  | .float x =>
    match whole x with
    | .ok n => truthOfInt n
    | .error _ => .error .notTruth
  | .text s =>
    let word := s.toLower
    if trueWords.contains word then .ok true
    else if falseWords.contains word then .ok false
    else .error .noTruthWord
  | _ => .error .notTruth

/-- What may stand around an integer: a blank, but none of the four separators. -/
def isSpace (c : Char) : Bool := Text.isBlank c && !(28 ≤ c.toNat && c.toNat ≤ 31)

/-- A text without spaces at its ends. -/
def trimmed (s : String) : List Char :=
  ((s.toList.dropWhile isSpace).reverse.dropWhile isSpace).reverse

/-- A text without zeroes and underscores in front, if it begins with a zero.  One of nothing else
keeps its last character. -/
def withoutZeros (cs : List Char) : List Char :=
  if cs.head? = some '0' then
    match cs.dropWhile fun c => c == '0' || c == '_' with
    | [] => cs.getLast?.toList
    | rest => rest
  else cs

/-- A text without a plus sign in front; no other sign may follow one. -/
def withoutPlus? : List Char → Option (List Char)
  | '+' :: cs => if cs.head? = some '+' || cs.head? = some '-' then none else some cs
  | cs => some cs

/-- The signs of an integer without those that say nothing: a plus sign, zeroes in front and after
the point, the point, and underscores.  A minus sign counts as one of the signs between which
underscores may stand, and keeps the zeroes that follow it. -/
def plainSigns? (cs : List Char) : Option (List Char) := do
  let (signs, _, zeros) := Text.cut '.' (← withoutPlus? cs)
  let parts := Text.splitOn '_' (withoutZeros signs)
  if zeros.all (· == '0') && parts.all fun p => !p.isEmpty then some parts.flatten else none

/-- Whether digits are those of an integer, without zeroes in front. -/
def areDigits (ds : List Char) : Bool :=
  ds == ['0'] || (ds.all Char.isDigit && !ds.isEmpty && ds.head? != some '0')

/-- An integer that is written as a text. -/
def integerOfText (s : String) : Except SettingProblem Int :=
  match plainSigns? (trimmed s) with
  | none => .error .noIntegerText
  | some signs =>
    let (negative, digits) := Numeral.splitSign signs
    let n : Int := Numeral.ofDigits (Numeral.digitValues digits)
    if !areDigits digits then .error .noIntegerText
    else if integerDigitLimit < signs.length then .error .tooLarge
    else .ok (if negative then -n else n)

/-- An integer. -/
def integer : Toml.Value → Except SettingProblem Int
  | .integer n => .ok n
  | .boolean b => .ok (if b then 1 else 0)
  | .notANumber => .error .notFinite
  | .float x => whole x
  | .text s => integerOfText s
  | _ => .error .notInteger

/-- A positive integer. -/
def positive (v : Toml.Value) : Except SettingProblem Int := do
  let n ← integer v
  if 0 < n then pure n else throw .notPositive

end Setting

end Schemata
