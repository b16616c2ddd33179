import Schemata.Text.Case

/-!
# Proofs — text — case

Upper and lower case on the first 128 characters, where they go letter by letter: a capital is 32
before its small letter (`toNat_toLower`, `toNat_toUpper`), and every other character is its own.
-/

namespace Schemata.Text

variable {c : Char}

/-- The capital letters are the characters from 65 to 90. -/
theorem isUpper_iff : c.isUpper = true ↔ 65 ≤ c.toNat ∧ c.toNat ≤ 90 := by
  unfold Char.isUpper
  rw [decide_eq_true_iff]
  exact Iff.rfl

theorem isLower_iff : c.isLower = true ↔ 97 ≤ c.toNat ∧ c.toNat ≤ 122 := by
  unfold Char.isLower
  rw [Bool.and_eq_true, decide_eq_true_iff, decide_eq_true_iff]
  exact Iff.rfl

/-- A small letter stands 32 characters behind its capital. -/
theorem toNat_toUpper (c : Char) :
    c.toUpper.toNat = if 97 ≤ c.toNat ∧ c.toNat ≤ 122 then c.toNat - 32 else c.toNat := by
  unfold Char.toUpper
  split
  next h =>
      have hlow : 97 ≤ c.toNat := h.1
      have hhigh : c.toNat ≤ 122 := h.2
      rw [if_pos ⟨hlow, hhigh⟩]
      change (c.val + ('A'.val - 'a'.val)).toNat = c.val.toNat - 32
      have hlow' : 97 ≤ c.val.toNat := hlow
      have hhigh' : c.val.toNat ≤ 122 := hhigh
      -- the distance is taken off by going around
      have haround : ('A'.val - 'a'.val : UInt32).toNat = 4294967264 := rfl
      rw [UInt32.toNat_add, haround]
      omega
  next h => exact (if_neg h).symm

/-- On the first 128 characters, lower case goes letter by letter. -/
theorem lower_of_ascii {cs : List Char} (h : ∀ c ∈ cs, c.toNat < 128) :
    lower (String.ofList cs) = String.ofList (cs.map Char.toLower) := by
  suffices hfrom : ∀ inWord, lowerFrom inWord cs = cs.map Char.toLower by
    rw [lower, String.toList_ofList, hfrom]
  induction cs with
  | nil => exact fun _ => rfl
  | cons c cs ih =>
      obtain ⟨hc, hcs⟩ := List.forall_mem_cons.mp h
      intro inWord
      rw [lowerFrom, if_neg (by simp; omega), lowerChars_of_ascii hc, ih hcs]
      rfl

/-- A capital letter stands 32 characters before its small one. -/
theorem toNat_toLower (c : Char) :
    c.toLower.toNat = if 65 ≤ c.toNat ∧ c.toNat ≤ 90 then c.toNat + 32 else c.toNat := by
  unfold Char.toLower
  split
  next h =>
      have hlow : 65 ≤ c.toNat := h.1
      have hhigh : c.toNat ≤ 90 := h.2
      rw [if_pos ⟨hlow, hhigh⟩]
      change (c.val + 32).toNat = c.val.toNat + 32
      have hhigh' : c.val.toNat ≤ 90 := hhigh
      have h32 : (32 : UInt32).toNat = 32 := rfl
      rw [UInt32.toNat_add]
      omega
  next h => exact (if_neg h).symm

/-! ### Letters in the other case -/

theorem toUpper_of_not_isLower (h : c.isLower = false) : c.toUpper = c := by
  rw [Bool.eq_false_iff, Ne, isLower_iff] at h
  rw [← Char.toNat_inj, toNat_toUpper, if_neg h]

/-- A letter and its capital have the same small one. -/
theorem toLower_toUpper (c : Char) : c.toUpper.toLower = c.toLower := by
  cases hlow : c.isLower with
  | false => rw [toUpper_of_not_isLower hlow]
  | true =>
      have hrange := isLower_iff.mp hlow
      rw [← Char.toNat_inj, toNat_toLower, toNat_toUpper, toNat_toLower, if_pos hrange,
        if_pos (by omega), if_neg (by omega)]
      omega

/-- A letter and its small one have the same capital. -/
theorem toUpper_toLower (c : Char) : c.toLower.toUpper = c.toUpper := by
  rw [← Char.toNat_inj, toNat_toUpper, toNat_toLower, toNat_toUpper]
  by_cases hrange : 65 ≤ c.toNat ∧ c.toNat ≤ 90
  · rw [if_pos hrange, if_pos (by omega), if_neg (by omega)]
    omega
  · rw [if_neg hrange]

theorem isUpper_toUpper_iff : c.toUpper.isUpper = true ↔ c.isUpper = true ∨ c.isLower = true := by
  rw [isUpper_iff, isUpper_iff, isLower_iff, toNat_toUpper]
  split <;> omega

/-- A small letter is its own small letter. -/
theorem toLower_toLower (c : Char) : c.toLower.toLower = c.toLower := by
  apply Char.toNat_inj.mp
  have h := toNat_toLower c
  rw [toNat_toLower c.toLower]
  split at h <;> simp only [h] <;> split <;> omega

/-- No letter has the plus sign for its small letter. -/
theorem toLower_eq_plus_iff {c : Char} : c.toLower = '+' ↔ c = '+' := by
  have h := toNat_toLower c
  have hplus : '+'.toNat = 43 := rfl
  rw [← Char.toNat_inj, ← Char.toNat_inj, hplus]
  split at h <;> omega

/-- No letter has the underscore for its capital. -/
theorem toUpper_eq_underscore_iff {c : Char} : c.toUpper = '_' ↔ c = '_' := by
  have h := toNat_toUpper c
  have hunderscore : '_'.toNat = 95 := rfl
  rw [← Char.toNat_inj, ← Char.toNat_inj, hunderscore]
  split at h <;> omega

/-- No letter has the underscore for its small letter. -/
theorem toLower_eq_underscore_iff {c : Char} : c.toLower = '_' ↔ c = '_' := by
  have h := toNat_toLower c
  have hunderscore : '_'.toNat = 95 := rfl
  rw [← Char.toNat_inj, ← Char.toNat_inj, hunderscore]
  split at h <;> omega

theorem toLower_lt (c : Char) (h : c.toNat < 128) : c.toLower.toNat < 128 := by
  rw [toNat_toLower]
  split <;> omega

end Schemata.Text
