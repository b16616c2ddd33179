import Schemata.Number.Decimal
import Schemata.Text.Blank
import Schemata.Text.Digit
import Schemata.Text.Quoted

/-!
# Number — numerals

Reading numbers from text.  Blanks at either end do not count, a sign may come first, decimal
digits of any script may be used, and a single underscore may stand between two digits.  An
integer has no limit to its size but one to its digits (`integerDigitLimit`); a fractional
number is read as the nearest one of double precision.

A numeral that stands for no number is a `NumeralFault`.
-/

namespace Schemata

/-- Why a text is not read as a number. -/
inductive NumeralFault where
  | notInteger (text : String)
  | notFraction (text : String)
  | tooManyDigits (count : Nat)
  deriving DecidableEq, Repr

/-- The number of digits up to which an integer is read. -/
def integerDigitLimit : Nat := 4300

/-- At most the first `n` characters of a text. -/
def clip (n : Nat) (s : String) : String := String.ofList (s.toList.take n)

def NumeralFault.message : NumeralFault → String
  | .notInteger text => s!"invalid literal for int() with base 10: {clip 200 (Text.quoted text)}"
  | .notFraction text => s!"could not convert string to float: {Text.quoted text}"
  | .tooManyDigits count =>
    s!"Exceeds the limit ({integerDigitLimit} digits) for integer string conversion: " ++
      s!"value has {count} digits; use sys.set_int_max_str_digits() to increase the limit"

namespace Numeral

open Text

/-- A sign at the front, and what comes after it. -/
def splitSign : List Char → Bool × List Char
  | '-' :: cs => (true, cs)
  | '+' :: cs => (false, cs)
  | cs => (false, cs)

/-- Whether every underscore stands between two digits, the character before the text being a
digit if `afterDigit`. -/
def underscoresFit (afterDigit : Bool) : List Char → Bool
  | [] => true
  | '_' :: cs => afterDigit && (cs.head?.map isDecimal).getD false && underscoresFit false cs
  | c :: cs => underscoresFit (isDecimal c) cs

/-- The values of the decimal digits in a text. -/
def digitValues (cs : List Char) : List Nat := cs.filterMap decimalValue?

/-- The number that digits write in positional notation. -/
def ofDigits (ds : List Nat) : Nat := ds.foldl (fun n d => n * 10 + d) 0

/-- A text without blanks at its ends. -/
def core (s : String) : List Char := stripRight (stripLeft s.toList)

/-- The integer that a text writes. -/
def integer (s : String) : Except NumeralFault Int :=
  let (negative, cs) := splitSign (core s)
  let run := cs.takeWhile fun c => isDecimal c || c == '_'
  let digits := digitValues run
  if digits.isEmpty || !underscoresFit false run then .error (.notInteger s)
  else if integerDigitLimit < digits.length then .error (.tooManyDigits digits.length)
  else if run.length < cs.length then .error (.notInteger s)
  else
    let n : Int := ofDigits digits
    .ok (if negative then -n else n)

/-- The exponent at the end of a fractional number: nothing, or `e` and an integer. -/
def exponent? : List Char → Option Int
  | [] => some 0
  | c :: cs =>
    if c == 'e' || c == 'E' then
      let (negative, ds) := splitSign cs
      if ds.isEmpty || !ds.all isDecimal then none
      else
        let n : Int := ofDigits (digitValues ds)
        some (if negative then -n else n)
    else none

/-- The names of infinity, in small letters. -/
def infinityNames : List String := ["inf", "infinity"]

/-- The number of double precision nearest to what a text writes. -/
def fraction? (s : String) : Option Binary64 :=
  let (negative, cs) := splitSign (core s)
  if infinityNames.contains (String.ofList (cs.map Char.toLower)) then some (.infinite negative)
  else if !underscoresFit false cs then none
  else
    let cs := cs.filter (· != '_')
    let whole := cs.takeWhile isDecimal
    let rest := cs.dropWhile isDecimal
    let (places, tail) :=
      match rest with
      | '.' :: rest => (rest.takeWhile isDecimal, rest.dropWhile isDecimal)
      | _ => ([], rest)
    if whole.isEmpty && places.isEmpty then none
    else
      (exponent? tail).map fun e =>
        .ofDecimal negative (ofDigits (digitValues (whole ++ places))) (e - places.length)

/-- The fractional number that a text writes. -/
def fraction (s : String) : Except NumeralFault Binary64 :=
  match fraction? s with
  | some x => .ok x
  | none => .error (.notFraction s)

end Numeral

end Schemata
