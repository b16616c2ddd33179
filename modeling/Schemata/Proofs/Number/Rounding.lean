import Schemata.Number.Decimal

/-!
# Proofs — numbers — rounding

What is rounded is a number of double precision (`Binary64.isDouble_ofDecimal`), rounding does not
depend on how a ratio is written (`Binary64.ofRatio_mul`), and the shortest decimal of a number
reads back as the number (`Binary64.toBinary64_shortest`).  The last holds also where no short
decimal does, because the exact value is then taken and is not lost in reading.
-/

namespace Schemata

-- Powers of whole numbers are the ones of the core library, whichever algebra is imported.
attribute [local instance (high)] instPowNat

namespace Binary64

/-- A number of double precision. -/
def IsDouble : Binary64 → Prop
  | .finite _ ticks => IsNumber ticks
  | .infinite _ => True

/-! ### Binary digits -/

/-- A number has at most `k` bits exactly if it is below `2 ^ k`. -/
theorem bitLength_le_iff {n k : Nat} : bitLength n ≤ k ↔ n < 2 ^ k := by
  unfold bitLength
  split
  next h =>
      rw [h]
      exact ⟨fun _ => Nat.two_pow_pos k, fun _ => Nat.zero_le k⟩
  next h => rw [Nat.succ_le_iff, Nat.log2_lt h]

/-- A number of few bits is less than their power of two, however both are scaled. -/
theorem mul_lt_of_bitLength_le {n k c : Nat} (h : bitLength n ≤ k) (hc : 0 < c) :
    n * c < 2 ^ k * c :=
  Nat.mul_lt_mul_of_pos_right (bitLength_le_iff.mp h) hc

theorem spacing_dvd {n k : Nat} (h : n < 2 ^ (53 + k)) : spacing n ∣ 2 ^ k :=
  Nat.pow_dvd_pow 2 (Nat.sub_le_of_le_add (by rw [Nat.add_comm]; exact bitLength_le_iff.mpr h))

/-- At most `2 ^ 53` times a power of two is a number, if it is not too large. -/
theorem spacing_dvd_mul {r k : Nat} (h : r ≤ 2 ^ (53 : Nat)) : spacing (r * 2 ^ k) ∣ r * 2 ^ k := by
  rcases Nat.lt_or_eq_of_le h with h | rfl
  · have hlt : r * 2 ^ k < 2 ^ (53 + k) := by
      rw [Nat.pow_add]
      exact Nat.mul_lt_mul_of_pos_right h (Nat.two_pow_pos k)
    exact Nat.dvd_trans (spacing_dvd hlt) (Nat.dvd_mul_left _ _)
  · have hlt : 2 ^ (53 : Nat) * 2 ^ k < 2 ^ (53 + (k + 1)) := by
      rw [← Nat.pow_add]
      exact Nat.pow_lt_pow_right (by decide) (by omega)
    refine Nat.dvd_trans (spacing_dvd hlt) ?_
    rw [← Nat.pow_add]
    exact Nat.pow_dvd_pow 2 (by omega)

/-! ### Rounding -/

/-- To round a quotient adds at most one. -/
theorem roundQuotient_le (num den : Nat) : roundQuotient num den ≤ num / den + 1 := by
  unfold roundQuotient
  dsimp only
  split <;> omega

/-- What a ratio is rounded to is a multiple of the distance of its neighbours. -/
theorem spacing_roundTicks_dvd (num den : Nat) :
    spacing (roundTicks num den) ∣ roundTicks num den := by
  unfold roundTicks
  refine spacing_dvd_mul ?_
  -- of the quotient no more than 53 binary digits are left
  have hlt : num / (den * spacing (num / den)) < 2 ^ (53 : Nat) := by
    rw [← Nat.div_div_eq_div_mul]
    refine (Nat.div_lt_iff_lt_mul (Nat.two_pow_pos _)).mpr ?_
    rw [← Nat.pow_add]
    exact bitLength_le_iff.mp (by omega)
  exact Nat.le_trans (roundQuotient_le _ _) hlt

/-- A ratio is rounded to a number of double precision. -/
theorem isDouble_ofRatio (negative : Bool) (num den : Nat) :
    (ofRatio negative num den).IsDouble := by
  unfold ofRatio
  dsimp only
  split
  next h => exact ⟨spacing_roundTicks_dvd _ _, h⟩
  next => trivial

theorem isNumber_zero : IsNumber 0 := by decide

/-- What a decimal is read as is a number of double precision. -/
theorem isDouble_ofDecimal (negative : Bool) (digits : Nat) (exponent : Int) :
    (ofDecimal negative digits exponent).IsDouble := by
  unfold ofDecimal
  dsimp only
  split
  · exact isNumber_zero
  · split
    · trivial
    · split
      · exact isDouble_ofRatio _ _ _
      · exact isDouble_ofRatio _ _ _

/-! ### Ratios written in two ways -/

/-- A quotient is rounded alike, however both sides are scaled. -/
theorem roundQuotient_mul_mul {num den c : Nat} (hc : 0 < c) :
    roundQuotient (num * c) (den * c) = roundQuotient num den := by
  unfold roundQuotient
  rw [Nat.mul_div_mul_right _ _ hc, Nat.mul_mod_mul_right, ← Nat.mul_assoc]
  have hlt : 2 * (num % den) * c < den * c ↔ 2 * (num % den) < den :=
    Nat.mul_lt_mul_right hc
  have heq : 2 * (num % den) * c = den * c ↔ 2 * (num % den) = den :=
    Nat.mul_left_inj (Nat.ne_of_gt hc)
  simp only [hlt, heq]

/-- A ratio has as many ticks, however both sides are scaled. -/
theorem roundTicks_mul {num den c : Nat} (hc : 0 < c) :
    roundTicks (num * c) (den * c) = roundTicks num den := by
  unfold roundTicks
  dsimp only
  rw [Nat.mul_div_mul_right _ _ hc, Nat.mul_right_comm den, roundQuotient_mul_mul hc]

/-- A ratio is rounded the same, whichever way it is written. -/
theorem ofRatio_mul {negative : Bool} {num den c : Nat} (hc : 0 < c) :
    ofRatio negative (num * c) (den * c) = ofRatio negative num den := by
  unfold ofRatio
  rw [Nat.mul_right_comm, roundTicks_mul hc]

/-! ### Decimal digits -/

/-- A number has at most `k` digits exactly if it is below `10 ^ k`, as long as `k` is not zero. -/
theorem digitCount_le_iff {n k : Nat} (hk : 0 < k) : digitCount n ≤ k ↔ n < 10 ^ k :=
  Nat.length_toDigits_le_iff (by decide) hk

/-- To multiply by `10 ^ k` adds `k` digits. -/
theorem digitCount_mul_pow {n : Nat} (hn : 0 < n) (k : Nat) :
    digitCount (n * 10 ^ k) = digitCount n + k := by
  induction k with
  | zero => rw [Nat.pow_zero, Nat.mul_one, Nat.add_zero]
  | succ k ih =>
      have hpos : 0 < n * 10 ^ k := Nat.mul_pos hn (Nat.pow_pos (by decide))
      have hten := Nat.toDigits_append_toDigits (b := 10) (by decide) hpos (show 0 < 10 by decide)
      have hmul : n * 10 ^ (k + 1) = 10 * (n * 10 ^ k) + 0 := by
        rw [Nat.pow_succ, ← Nat.mul_assoc]
        omega
      unfold digitCount at ih ⊢
      rw [hmul, ← hten, List.length_append, ih, Nat.toDigits_zero]
      rfl

/-- Zeros may be written before the point or be left to the exponent. -/
theorem ofDecimal_mul_pow (negative : Bool) {n : Nat} (hn : 0 < n) (k : Nat) :
    ofDecimal negative (n * 10 ^ (k + 1)) (-1) = ofDecimal negative n k := by
  have hne : n * 10 ^ (k + 1) ≠ 0 := Nat.ne_of_gt (Nat.mul_pos hn (Nat.pow_pos (by decide)))
  have hsize : (digitCount (n * 10 ^ (k + 1)) : Int) + -1 = digitCount n + (k : Int) := by
    rw [digitCount_mul_pow hn]
    omega
  have hratio : ofRatio negative (n * 10 ^ (k + 1)) (10 ^ (1 : Nat)) =
      ofRatio negative (n * 10 ^ k) 1 := by
    rw [Nat.pow_succ, ← Nat.mul_assoc]
    exact ofRatio_mul (show 0 < 10 by decide)
  unfold ofDecimal
  dsimp only
  rw [hsize]
  simp only [hne, Nat.ne_of_gt hn, false_or]
  split
  · rfl
  · split
    · rfl
    · rw [if_neg (by decide), if_pos (Int.natCast_nonneg k), Int.toNat_natCast]
      exact hratio

/-! ### The exact value of a number -/

theorem pow_le_exactDigits : 10 ^ (744 : Nat) ≤ 5 ^ (1074 : Nat) := by decide +kernel

theorem exactDigits_lt_pow : 2 ^ (2098 : Nat) * 5 ^ (1074 : Nat) < 10 ^ (1383 : Nat) := by
  decide +kernel

theorem mul_five_pow (n k : Nat) : n * 5 ^ k * 2 ^ k = n * 10 ^ k := by
  rw [Nat.mul_assoc, ← Nat.mul_pow]

theorem ten_pow_pos (k : Nat) : 0 < 10 ^ k := Nat.pow_pos (by decide)

theorem exactDigits_pos : 0 < 5 ^ (1074 : Nat) := by decide +kernel

/-- The exact value of a number, in digits, is neither too small nor too large to be read. -/
theorem digitCount_exact {ticks : Nat} (hpos : 0 < ticks) (h : bitLength ticks ≤ 2098) :
    744 < digitCount (ticks * 5 ^ (1074 : Nat)) ∧
      digitCount (ticks * 5 ^ (1074 : Nat)) ≤ 1383 := by
  have hlow : 10 ^ (744 : Nat) ≤ ticks * 5 ^ (1074 : Nat) :=
    Nat.le_trans pow_le_exactDigits (Nat.le_mul_of_pos_left _ hpos)
  have hhigh := mul_lt_of_bitLength_le h exactDigits_pos
  exact ⟨Nat.lt_of_not_le fun hle =>
      absurd ((digitCount_le_iff (by decide)).mp hle) (Nat.not_lt.mpr hlow),
    (digitCount_le_iff (by decide)).mpr (Nat.lt_trans hhigh exactDigits_lt_pow)⟩

/-- Reading the exact value of a number gives the number. -/
theorem toBinary64_exactDecimal (negative : Bool) {ticks : Nat} (hpos : 0 < ticks)
    (h : IsNumber ticks) : (exactDecimal ticks).toBinary64 negative = .finite negative ticks := by
  obtain ⟨hlow, hhigh⟩ := digitCount_exact hpos h.2
  have hne : ticks * 5 ^ (1074 : Nat) ≠ 0 := Nat.ne_of_gt (Nat.mul_pos hpos exactDigits_pos)
  have hexact : ticks * 5 ^ (1074 : Nat) * ticksPerUnit = ticks * 10 ^ (1074 : Nat) := by
    unfold ticksPerUnit
    exact mul_five_pow ticks 1074
  have hround :
      roundTicks (ticks * 5 ^ (1074 : Nat) * ticksPerUnit) (10 ^ (1074 : Nat)) = ticks := by
    rw [hexact]
    exact roundTicks_of_isNumber h (ten_pow_pos 1074)
  unfold Decimal.toBinary64 exactDecimal ofDecimal
  dsimp only
  generalize ticks * 5 ^ (1074 : Nat) = digits at *
  rw [if_neg (by omega), if_neg (by omega), if_neg (by decide)]
  unfold ofRatio
  rw [show (-(-1074 : Int)).toNat = 1074 from rfl, hround]
  exact if_pos h.2

/-- **The shortest decimal** of a number reads back as the number. -/
theorem toBinary64_shortest (negative : Bool) {ticks : Nat} (hpos : 0 < ticks)
    (h : IsNumber ticks) :
    (shortest negative ticks).toBinary64 negative = .finite negative ticks := by
  rcases shortest_cases negative ticks with hread | hexact
  · exact hread
  · rw [hexact]
    exact toBinary64_exactDecimal negative hpos h

end Binary64

end Schemata
