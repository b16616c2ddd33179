/-!
# Text — digits

Three classes of digit, each inside the next.

* The decimal digits: every script has ten of them, in a row, and they count in positional
  notation.  `decimalValue?` is what one stands for.
* The digits: the decimal ones and the ones that only look like digits, such as superscripts
  and circled digits.  A numeral of the schema language is made of these (`isDigit`), so a
  numeral may be one that stands for no number.
* The signs with a numeric value of any kind are left to `Schemata.Text.Letter`.

In the first 128 characters all of them are `0` to `9` (`isDigit_of_ascii`).
-/

namespace Schemata.Text

/-- Whether `n` lies in the set that the increasing list of boundaries describes: the first
boundary enters the set, the second leaves it, and so on. -/
def within (boundaries : List Nat) (n : Nat) : Bool :=
  boundaries.foldl (fun inside b => if b ≤ n then !inside else inside) false

/-- The zero of each script but the first; the other nine digits follow it. -/
def decimalZeros : List Nat :=
  [1632, 1776, 1984, 2406, 2534, 2662, 2790, 2918, 3046, 3174, 3302, 3430, 3558, 3664, 3792,
   3872, 4160, 4240, 6112, 6160, 6470, 6608, 6784, 6800, 6992, 7088, 7232, 7248, 42528, 43216,
   43264, 43472, 43504, 43600, 44016, 65296, 66720, 68912, 69734, 69872, 69942, 70096, 70384,
   70736, 70864, 71248, 71360, 71472, 71904, 72016, 72784, 73040, 73120, 92768, 92864, 93008,
   120782, 120792, 120802, 120812, 120822, 123200, 123632, 125264, 130032]

/-- The boundaries of the digits that are not decimal digits. -/
def ornamentalDigits : List Nat :=
  [178, 180, 185, 186, 4969, 4978, 6618, 6619, 8304, 8305, 8308, 8314, 8320, 8330, 9312, 9321,
   9332, 9341, 9352, 9361, 9450, 9451, 9461, 9470, 9471, 9472, 10102, 10111, 10112, 10121,
   10122, 10131, 68160, 68164, 69216, 69225, 69714, 69723, 127232, 127243]

/-- What a decimal digit stands for. -/
def decimalValue? (c : Char) : Option Nat :=
  if c.toNat < 128 then
    if c.isDigit then some (c.toNat - 48) else none
  else
    (decimalZeros.find? fun z => z ≤ c.toNat && c.toNat < z + 10).map fun z => c.toNat - z

/-- A digit that counts in positional notation. -/
def isDecimal (c : Char) : Bool := (decimalValue? c).isSome

/-- A digit of either kind. -/
def isDigit (c : Char) : Bool :=
  if c.toNat < 128 then c.isDigit else isDecimal c || within ornamentalDigits c.toNat

theorem isDigit_of_ascii {c : Char} (h : c.toNat < 128) : isDigit c = c.isDigit := by
  simp [isDigit, h]

theorem isDecimal_of_ascii {c : Char} (h : c.toNat < 128) : isDecimal c = c.isDigit := by
  unfold isDecimal decimalValue?
  cases hc : c.isDigit <;> simp [h]

/-- A decimal digit is a digit. -/
theorem isDigit_of_isDecimal {c : Char} (h : isDecimal c = true) : isDigit c = true := by
  by_cases hc : c.toNat < 128
  · rw [isDigit_of_ascii hc, ← isDecimal_of_ascii hc, h]
  · simp [isDigit, hc, h]

end Schemata.Text
