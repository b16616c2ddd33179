import Schemata.Text.Blank

/-!
# Proofs — text — layout

A text that is made of parts with gaps between them (`Text.Laid`).  What a gap may be is left open,
and so is which characters must not meet: where the last one of a part would clash with the first
one of the next, there is something in the gap.

* `Laid.laid_spaced` — with blanks between them, all parts are laid out.
-/

namespace Schemata.Text

/-! ### Visible characters -/

section

variable {c : Char}

/-- A visible character of ASCII is no blank. -/
theorem isBlank_of_visible (h : 33 ≤ c.toNat) (h' : c.toNat < 127) : isBlank c = false := by
  simp [isBlank]
  omega

/-- What a word may begin with lies between `A` and `z`. -/
theorem bounds_of_letter (h : (c.isAlpha || c == '_') = true) : 65 ≤ c.toNat ∧ c.toNat ≤ 122 := by
  have hcases : (decide ('A'.val ≤ c.val ∧ c.val ≤ 'Z'.val) ||
      (decide ('a'.val ≤ c.val) && decide (c.val ≤ 'z'.val)) || c == '_') = true := h
  simp only [Bool.or_eq_true, Bool.and_eq_true, decide_eq_true_eq, beq_iff_eq,
    UInt32.le_iff_toNat_le] at hcases
  rcases hcases with (⟨hlow, hhigh⟩ | ⟨hlow, hhigh⟩) | rfl
  · exact ⟨hlow, Nat.le_trans hhigh (by decide)⟩
  · exact ⟨Nat.le_trans (by decide) hlow, hhigh⟩
  · decide

theorem isBlank_of_letter (h : (c.isAlpha || c == '_') = true) : isBlank c = false := by
  obtain ⟨hlow, hhigh⟩ := bounds_of_letter h
  exact isBlank_of_visible (by omega) (by omega)

end

/-! ### Runs -/

/-- A run of characters is taken as long as nothing goes on with it. -/
theorem span_append {p : Char → Bool} {cs rest : List Char} (h : ∀ c ∈ cs, p c = true)
    (hrest : ∀ c ∈ rest.head?, p c = false) :
    (cs ++ rest).takeWhile p = cs ∧ (cs ++ rest).dropWhile p = rest := by
  rw [List.takeWhile_append_of_pos h, List.dropWhile_append_of_pos h]
  cases rest with
  | nil => simp
  | cons c rest => simp [hrest c rfl]

/-! ### Parts -/

/-- The parts one after the other, with a gap before each and one at the end.  A gap is judged with
the text after it, and what comes after a part must not clash with it. -/
inductive Laid {α : Type} (spell : α → List Char) (Gap : List Char → List Char → Prop)
    (Clash : Char → Char → Prop) : List α → List Char → Prop
  | nil {gap : List Char} (ends : Gap gap []) : Laid spell Gap Clash [] gap
  | cons {a : α} {as : List α} {gap cs : List Char} (between : Gap gap (spell a ++ cs))
      (apart : ∀ c ∈ (spell a).getLast?, ∀ d ∈ cs.head?, ¬ Clash c d)
      (rest : Laid spell Gap Clash as cs) :
      Laid spell Gap Clash (a :: as) (gap ++ (spell a ++ cs))

/-- The parts with a blank before each, and one at the end. -/
def spaced {α : Type} (spell : α → List Char) : List α → List Char
  | [] => [' ']
  | a :: as => [' '] ++ (spell a ++ spaced spell as)

namespace Laid

variable {α : Type} {spell : α → List Char} {Gap : List Char → List Char → Prop}
  {Clash : Char → Char → Prop}

/-- A blank between any two parts is enough, if it is a gap and clashes with nothing. -/
theorem laid_spaced (hgap : ∀ rest, Gap [' '] rest) (hclash : ∀ c, ¬ Clash c ' ') (as : List α) :
    Laid spell Gap Clash as (spaced spell as) := by
  induction as with
  | nil => exact .nil (hgap [])
  | cons a as ih =>
      refine .cons (hgap _) (fun c _ d hd => ?_) ih
      have hblank : d = ' ' := by
        cases as <;> cases hd <;> rfl
      exact hblank ▸ hclash c

/-- The first character is one of a gap, or of the first part. -/
theorem head_cases {as : List α} {cs : List Char} (h : Laid spell Gap Clash as cs)
    (hne : ∀ a ∈ as, spell a ≠ []) {d : Char} (hd : d ∈ cs.head?) :
    (∃ gap rest, Gap (d :: gap) rest) ∨ ∃ a ∈ as.head?, d ∈ (spell a).head? := by
  cases h with
  | nil ends =>
      cases cs with
      | nil => cases hd
      | cons c gap =>
          cases hd
          exact .inl ⟨gap, [], ends⟩
  | @cons a as gap cs between =>
      cases gap with
      | nil =>
          obtain ⟨c, w, hw⟩ := List.exists_cons_of_ne_nil (hne a List.mem_cons_self)
          rw [hw] at hd
          cases hd
          exact .inr ⟨a, rfl, by rw [hw]; rfl⟩
      | cons c gap =>
          cases hd
          exact .inl ⟨gap, _, between⟩

end Laid

end Schemata.Text
