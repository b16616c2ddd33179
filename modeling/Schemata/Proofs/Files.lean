import Mathlib.Data.List.Infix
import Schemata.Files.Tree

/-!
# Proofs — files — what a tree keeps

Where parts lead is settled by the parts alone, if they lead anywhere (`Tree.locate_eq`).  So writing
changes the place that the parts lead to and no other, and making a directory makes it, and what is
missing on the way, and replaces nothing (`Tree.keepsBut_write`, `Tree.keepsBut_makeDirectory`).
-/

namespace Schemata.Tree

variable {t t' t'' : Tree} {here place : Place} {parts : List String}

/-- Where parts lead from a place. -/
def follow (here : Place) (parts : List String) : Place := parts.foldl step here

/-- Parts that lead somewhere lead where they say. -/
theorem locate_eq (h : t.locate here parts = .ok place) : place = follow here parts := by
  induction parts generalizing here with
  | nil =>
      cases h
      rfl
  | cons part parts ih =>
      unfold locate at h
      split at h
      · cases h
      · cases h
      · split at h
        · cases h
        · exact ih h

/-- That the second tree is the first but for the place that parts lead to, and for directories on
the way there, made where nothing was. -/
def KeepsBut (here : Place) (parts : List String) (t t' : Tree) : Prop :=
  ∀ place, t'.node? place = t.node? place ∨ place = follow here parts ∨
    t.node? place = none ∧ t'.node? place = some .directory ∧
      ∃ front, front <+: parts.dropLast ∧ place = follow here front

theorem KeepsBut.refl (here : Place) (parts : List String) (t : Tree) :
    KeepsBut here parts t t := fun _ => .inl rfl

/-- What keeps everything but a path, one after the other, keeps everything but it. -/
theorem KeepsBut.trans (h : KeepsBut here parts t t') (h' : KeepsBut here parts t' t'') :
    KeepsBut here parts t t'' := by
  intro place
  rcases h place with hsame | hat | ⟨hnone, hmade, hway⟩
  · rcases h' place with hsame' | hat' | ⟨hnone', hmade', hway'⟩
    · exact .inl (hsame'.trans hsame)
    · exact .inr (.inl hat')
    · exact .inr (.inr ⟨hsame ▸ hnone', hmade', hway'⟩)
  · exact .inr (.inl hat)
  · rcases h' place with hsame' | hat' | ⟨hnone', hmade', hway'⟩
    · exact .inr (.inr ⟨hnone, hsame'.trans hmade, hway⟩)
    · exact .inr (.inl hat')
    · rw [hmade] at hnone'
      cases hnone'

/-- Writing changes the place where the parts lead, and no other. -/
theorem keepsBut_write {bytes : List UInt8} (h : t.write here parts bytes = .ok t') :
    KeepsBut here parts t t' := by
  intro place
  unfold write at h
  cases hlocate : t.locate here parts with
  | error problem =>
      rw [hlocate] at h
      cases h
  | ok found =>
      rw [hlocate] at h
      by_cases hplace : place = follow here parts
      · exact .inr (.inl hplace)
      · left
        simp only [bind, Except.bind] at h
        split at h
        · cases h
        · cases h
          exact node?_set_of_ne t _ (locate_eq hlocate ▸ hplace)

/-- Making a directory makes directories where nothing was, on the way there, and no more. -/
theorem node?_makeDirectory (h : t.makeDirectory here parts = .ok t') (place : Place) :
    t'.node? place = t.node? place ∨
      t.node? place = none ∧ t'.node? place = some .directory ∧
        ∃ front, front <+: parts ∧ place = follow here front := by
  induction parts generalizing t here with
  | nil =>
      cases h
      exact .inl rfl
  | cons part parts ih =>
      have hfurther : (∃ front, front <+: parts ∧ place = follow (step here part) front) →
          ∃ front, front <+: part :: parts ∧ place = follow here front := by
        rintro ⟨front, hfront, rfl⟩
        exact ⟨part :: front, List.cons_prefix_cons.mpr ⟨rfl, hfront⟩, rfl⟩
      unfold makeDirectory at h
      split at h
      · cases h
      · split at h
        next hnone =>
          have hset : (t.set (step here part) .directory).node? (step here part) =
              some .directory := by
            refine node?_set_self t _ fun htop => ?_
            rw [htop] at hnone
            cases hnone
          by_cases hplace : place = step here part
          · -- what was just made stays a directory
            have hmade : t'.node? place = some .directory := by
              rcases ih h with hsame | ⟨hbefore, -, -⟩
              · rw [hsame, hplace, hset]
              · rw [hplace, hset] at hbefore
                cases hbefore
            exact .inr ⟨hplace ▸ hnone, hmade, [part], List.prefix_append [part] parts, hplace⟩
          · rcases ih h with hsame | ⟨hbefore, hmade, hway⟩
            · exact .inl (hsame.trans (node?_set_of_ne t _ hplace))
            · exact .inr ⟨(node?_set_of_ne t _ hplace).symm.trans hbefore, hmade, hfurther hway⟩
        next =>
          rcases ih h with hsame | ⟨hbefore, hmade, hway⟩
          · exact .inl hsame
          · exact .inr ⟨hbefore, hmade, hfurther hway⟩
        next => cases h

theorem keepsBut_makeDirectory (h : t.makeDirectory here parts.dropLast = .ok t') :
    KeepsBut here parts t t' := fun place =>
  (node?_makeDirectory h place).imp_right .inr

end Schemata.Tree
