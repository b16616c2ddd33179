/-!
# Text — splitting

A text cut at every occurrence of one character.  There is always one part more than there are
occurrences (`length_splitOn`), and no part has the character in it (`not_mem_of_mem_splitOn`).
-/

namespace Schemata.Text

/-- The parts of a text between the occurrences of `sep`. -/
def splitOn (sep : Char) : List Char → List (List Char)
  | [] => [[]]
  | c :: cs =>
    match splitOn sep cs with
    | [] => [[c]]
    | p :: ps => if c = sep then [] :: p :: ps else (c :: p) :: ps

/-- What comes before the first occurrence of `sep`, whether there is one, and what comes after
it. -/
def cut (sep : Char) (cs : List Char) : List Char × Bool × List Char :=
  match cs.dropWhile (· != sep) with
  | [] => (cs, false, [])
  | _ :: rest => (cs.takeWhile (· != sep), true, rest)

/-- The same for the last occurrence; without one, everything comes after it. -/
def cutLast (sep : Char) (cs : List Char) : List Char × Bool × List Char :=
  let (after, found, before) := cut sep cs.reverse
  (before.reverse, found, after.reverse)

theorem splitOn_ne_nil (sep : Char) (cs : List Char) : splitOn sep cs ≠ [] := by
  cases cs with
  | nil => simp [splitOn]
  | cons c cs =>
    unfold splitOn
    split
    · simp
    · split <;> simp

theorem length_splitOn (sep : Char) (cs : List Char) :
    (splitOn sep cs).length = cs.count sep + 1 := by
  induction cs with
  | nil => rfl
  | cons c cs ih =>
    unfold splitOn
    split
    next h => exact absurd h (splitOn_ne_nil sep cs)
    next p ps h =>
      rw [h] at ih
      by_cases hc : c = sep <;> simp_all

theorem not_mem_of_mem_splitOn {sep : Char} {cs p : List Char} (h : p ∈ splitOn sep cs) :
    sep ∉ p := by
  induction cs generalizing p with
  | nil => simp_all [splitOn]
  | cons c cs ih =>
    unfold splitOn at h
    split at h
    next hs => exact absurd hs (splitOn_ne_nil sep cs)
    next q qs hs =>
      rw [hs] at ih
      split at h
      next => rcases List.mem_cons.1 h with rfl | h
              · simp
              · exact ih h
      next hc =>
        rcases List.mem_cons.1 h with rfl | h
        · exact List.not_mem_cons_of_ne_of_not_mem (fun e => hc e.symm) (ih (by simp))
        · exact ih (List.mem_cons_of_mem _ h)

/-- A text without the character is its only part. -/
theorem splitOn_of_not_mem {sep : Char} {cs : List Char} (h : sep ∉ cs) :
    splitOn sep cs = [cs] := by
  induction cs with
  | nil => rfl
  | cons c cs ih =>
    rw [List.mem_cons, not_or] at h
    simp [splitOn, ih h.2, Ne.symm h.1]

/-- The first part ends at the first occurrence. -/
theorem splitOn_append {sep : Char} {p : List Char} (cs : List Char) (h : sep ∉ p) :
    splitOn sep (p ++ sep :: cs) = p :: splitOn sep cs := by
  induction p with
  | nil =>
    rw [List.nil_append, splitOn]
    split
    next hs => exact absurd hs (splitOn_ne_nil sep cs)
    next hs => rw [hs]; simp
  | cons c p ih =>
    rw [List.mem_cons, not_or] at h
    simp [splitOn, ih h.2, Ne.symm h.1]

theorem intercalate_cons_cons (sep : Char) (p q : List Char) (ps : List (List Char)) :
    [sep].intercalate (p :: q :: ps) = p ++ sep :: [sep].intercalate (q :: ps) := by
  simp [List.intercalate, List.intersperse]

/-- The parts of parts that are written with the character between them. -/
theorem splitOn_intercalate {sep : Char} {ps : List (List Char)} (hne : ps ≠ [])
    (h : ∀ p ∈ ps, sep ∉ p) : splitOn sep ([sep].intercalate ps) = ps := by
  induction ps with
  | nil => exact absurd rfl hne
  | cons p ps ih =>
    cases ps with
    | nil => simpa using splitOn_of_not_mem (h p (by simp))
    | cons q qs =>
      rw [intercalate_cons_cons, splitOn_append _ (h p (by simp)),
        ih (by simp) fun r hr => h r (List.mem_cons_of_mem _ hr)]

/-- The parts with the character between them are the text again. -/
theorem intercalate_splitOn (sep : Char) (cs : List Char) :
    [sep].intercalate (splitOn sep cs) = cs := by
  induction cs with
  | nil => rfl
  | cons c cs ih =>
    unfold splitOn
    split
    next hs => exact absurd hs (splitOn_ne_nil sep cs)
    next p ps hs =>
      rw [hs] at ih
      split
      next hc => rw [intercalate_cons_cons, ih, hc, List.nil_append]
      next =>
        cases ps with
        | nil => simpa using ih
        | cons q qs =>
          rw [intercalate_cons_cons] at ih ⊢
          rw [List.cons_append, ih]

/-- What is in a part of a text is in the text. -/
theorem subset_of_mem_splitOn {sep : Char} {cs p : List Char} (h : p ∈ splitOn sep cs) :
    p ⊆ cs := by
  induction cs generalizing p with
  | nil =>
      rcases List.mem_singleton.mp h with rfl
      exact List.Subset.refl _
  | cons c cs ih =>
      unfold splitOn at h
      split at h
      next hsplit => exact absurd hsplit (splitOn_ne_nil sep cs)
      next q qs hsplit =>
          rw [hsplit] at ih
          split at h
          · rcases List.mem_cons.mp h with rfl | h
            · exact List.nil_subset _
            · exact List.subset_cons_of_subset c (ih h)
          · rcases List.mem_cons.mp h with rfl | h
            · exact List.cons_subset_cons c (ih List.mem_cons_self)
            · exact List.subset_cons_of_subset c (ih (List.mem_cons_of_mem q h))

/-- Every other character is in a part. -/
theorem exists_mem_splitOn {sep c : Char} {cs : List Char} (hc : c ∈ cs) (hsep : c ≠ sep) :
    ∃ p ∈ splitOn sep cs, c ∈ p := by
  induction cs with
  | nil => cases hc
  | cons d cs ih =>
      unfold splitOn
      split
      next hsplit => exact absurd hsplit (splitOn_ne_nil sep cs)
      next q qs hsplit =>
          rw [hsplit] at ih
          rcases List.mem_cons.mp hc with rfl | hc
          · rw [if_neg hsep]
            exact ⟨_, List.mem_cons_self, List.mem_cons_self⟩
          · obtain ⟨p, hp, hcp⟩ := ih hc
            split
            · exact ⟨p, List.mem_cons_of_mem _ hp, hcp⟩
            · rcases List.mem_cons.mp hp with rfl | hp
              · exact ⟨_, List.mem_cons_self, List.mem_cons_of_mem d hcp⟩
              · exact ⟨p, List.mem_cons_of_mem _ hp, hcp⟩

/-- A text with the character in it has the parts of what comes before it, and then those of what
comes after. -/
theorem splitOn_append_cons (sep : Char) (cs ds : List Char) :
    splitOn sep (cs ++ sep :: ds) = splitOn sep cs ++ splitOn sep ds := by
  induction cs with
  | nil => exact splitOn_append ds List.not_mem_nil
  | cons c cs ih =>
    rw [List.cons_append, splitOn, ih, splitOn]
    cases hsplit : splitOn sep cs with
    | nil => exact absurd hsplit (splitOn_ne_nil sep cs)
    | cons p ps =>
      dsimp only [List.cons_append]
      split <;> rfl

end Schemata.Text
