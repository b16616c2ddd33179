/-!
# Number — double precision

The numbers of double precision, as exact values.  Every finite one is a whole number of ticks
of 2⁻¹⁰⁷⁴, the smallest positive one, so a finite number is its sign and its count of ticks; the
sign is kept apart because zero has two.  Not every count belongs to a number: `spacing` is the
distance of neighbouring numbers at a given size, and a count is one of a number when it is a
multiple of it (`IsNumber`).

`ofRatio` rounds a positive ratio to the nearest number, a half to the even neighbour, and to
infinity from 2¹⁰²⁴ on.  `ofDecimal` is the same for a decimal with an exponent.  A number is
its own rounding (`roundTicks_of_isNumber`).
-/

namespace Schemata

-- Powers of whole numbers are the ones of the core library, whichever algebra is imported.
attribute [local instance (high)] instPowNat

/-- A number of double precision: a count of ticks of 2⁻¹⁰⁷⁴ with a sign, or an infinity. -/
inductive Binary64 where
  | finite (negative : Bool) (ticks : Nat)
  | infinite (negative : Bool)
  deriving DecidableEq, Repr, Inhabited

namespace Binary64

/-- The ticks in one. -/
def ticksPerUnit : Nat := 2 ^ (1074 : Nat)

/-- The number of binary digits of `n`. -/
def bitLength (n : Nat) : Nat := if n = 0 then 0 else n.log2 + 1

/-- The distance of neighbouring numbers near `ticks` ticks: a number has 53 binary digits. -/
def spacing (ticks : Nat) : Nat := 2 ^ (bitLength ticks - 53)

/-- A count of ticks that a finite number has. -/
def IsNumber (ticks : Nat) : Prop := spacing ticks ∣ ticks ∧ bitLength ticks ≤ 2098

instance (ticks : Nat) : Decidable (IsNumber ticks) := inferInstanceAs (Decidable (_ ∧ _))

/-- The quotient rounded to the nearest integer, a half to the even one. -/
def roundQuotient (num den : Nat) : Nat :=
  let q := num / den
  let twice := 2 * (num % den)
  if twice < den ∨ (twice = den ∧ q % 2 = 0) then q else q + 1

/-- The ticks of the number nearest to `num / den` ticks. -/
def roundTicks (num den : Nat) : Nat :=
  let unit := spacing (num / den)
  roundQuotient num (den * unit) * unit

/-- The number nearest to ± `num / den`. -/
def ofRatio (negative : Bool) (num den : Nat) : Binary64 :=
  let ticks := roundTicks (num * ticksPerUnit) den
  if bitLength ticks ≤ 2098 then .finite negative ticks else .infinite negative

/-- How many decimal digits `n` is written with. -/
def digitCount (n : Nat) : Nat := (Nat.toDigits 10 n).length

/-- The number nearest to ± `digits · 10 ^ exponent`.  The two outer cases are too large and too
small for their exponent to be looked at. -/
def ofDecimal (negative : Bool) (digits : Nat) (exponent : Int) : Binary64 :=
  let size := digitCount digits + exponent
  if digits = 0 ∨ size < -330 then .finite negative 0
  else if 310 < size then .infinite negative
  else if 0 ≤ exponent then ofRatio negative (digits * 10 ^ exponent.toNat) 1
  else ofRatio negative digits (10 ^ (-exponent).toNat)

/-- The ticks with their sign, of a finite number. -/
def signedTicks? : Binary64 → Option Int
  | .finite negative ticks => some (if negative then -(ticks : Int) else ticks)
  | .infinite _ => none

/-- The same value: the two zeros are one value, and an infinity is only the value of itself. -/
def sameValue : Binary64 → Binary64 → Bool
  | .infinite a, .infinite b => a == b
  | .infinite _, .finite _ _ => false
  | .finite _ _, .infinite _ => false
  | .finite a m, .finite b n =>
    (Binary64.finite a m).signedTicks? == (Binary64.finite b n).signedTicks?

/-- Whether the number has the value of the integer `n`. -/
def isInt (x : Binary64) (n : Int) : Bool := x.signedTicks? == some (n * ticksPerUnit)

theorem roundQuotient_mul {n d : Nat} (hd : 0 < d) : roundQuotient (n * d) d = n := by
  simp [roundQuotient, Nat.mul_div_cancel _ hd, hd]

/-- Rounding leaves a number as it is. -/
theorem roundTicks_of_isNumber {t d : Nat} (h : IsNumber t) (hd : 0 < d) :
    roundTicks (t * d) d = t := by
  obtain ⟨⟨q, hq⟩, -⟩ := h
  have hs : 0 < spacing t := Nat.two_pow_pos _
  have hdiv : t * d / d = t := Nat.mul_div_cancel _ hd
  unfold roundTicks
  simp only [hdiv]
  have : t * d = q * (d * spacing t) := by
    rw [Nat.mul_left_comm, Nat.mul_comm q, ← hq, Nat.mul_comm]
  rw [this, roundQuotient_mul (Nat.mul_pos hd hs), Nat.mul_comm]
  exact hq.symm

theorem sameValue_self (x : Binary64) : x.sameValue x = true := by
  cases x <;> simp [sameValue]

end Binary64

end Schemata
