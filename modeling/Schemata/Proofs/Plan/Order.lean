import Mathlib.Data.List.Basic
import Mathlib.Logic.Relation
import Schemata.Plan.Order

/-!
# Proofs — the order of tables

The sort neither loses a table nor adds one: what it places and what is stuck are together the
tables that it was given (`sort_perm`), and `sorted` always answers (`sorted_outcome`).

* `place_ready`, `place_stuck` — a placed table comes after what it needs, and one that is stuck
  waits for another one that is.
* `sort_of_acyclic` — so nothing is stuck where no table depends on itself through others.
* `mem_of_sort_eq` — and a table comes after every table that it depends on.
-/

namespace Schemata

/-- No path leads back to its start where each step leads to a lower rank. -/
theorem not_transGen_self_of_rank {α : Type} {r : α → α → Prop} (rank : α → Nat)
    (h : ∀ a b, r a b → rank b < rank a) (a : α) : ¬ Relation.TransGen r a a := by
  have hrank : ∀ b, Relation.TransGen r a b → rank b < rank a := by
    intro b hpath
    induction hpath with
    | single hab => exact h _ _ hab
    | tail _ hbc ih => exact Nat.lt_trans (h _ _ hbc) ih
  exact fun hpath => Nat.lt_irrefl _ (hrank a hpath)

/-- A part of a list without repetition keeps the order of the list. -/
theorem idxOf_lt_iff_of_sublist {α : Type} [BEq α] [LawfulBEq α] {xs ys : List α} {a b : α}
    (h : ys.Sublist xs) (hnodup : xs.Nodup) (ha : a ∈ ys) (hb : b ∈ ys) :
    ys.idxOf a < ys.idxOf b ↔ xs.idxOf a < xs.idxOf b := by
  induction h with
  | slnil => cases ha
  | cons x h ih =>
      obtain ⟨hx, hnodup⟩ := List.nodup_cons.mp hnodup
      have hne : ∀ c ∈ _, x ≠ c := fun c hc he => hx (he ▸ h.subset hc)
      rw [List.idxOf_cons_ne _ (hne a ha), List.idxOf_cons_ne _ (hne b hb), ih hnodup ha hb,
        Nat.succ_lt_succ_iff]
  | cons_cons x h ih =>
      obtain ⟨hx, hnodup⟩ := List.nodup_cons.mp hnodup
      by_cases hxb : x = b
      · simp [hxb]
      by_cases hxa : x = a
      · subst hxa
        simp [List.idxOf_cons_ne _ hxb]
      · have ha := (List.mem_cons.mp ha).resolve_left (Ne.symm hxa)
        have hb := (List.mem_cons.mp hb).resolve_left (Ne.symm hxb)
        rw [List.idxOf_cons_ne _ hxa, List.idxOf_cons_ne _ hxb, List.idxOf_cons_ne _ hxa,
          List.idxOf_cons_ne _ hxb, Nat.succ_lt_succ_iff, Nat.succ_lt_succ_iff, ih hnodup ha hb]

namespace Dependencies

/-- One step of the sort, where a table is ready. -/
theorem place_of_ready {needs : String → List String} {placed remaining : List String}
    {t : String} (h : remaining.find? (fun t => (needs t).all placed.contains) = some t) :
    place needs placed remaining =
      (t :: (place needs (t :: placed) (remaining.erase t)).1,
        (place needs (t :: placed) (remaining.erase t)).2) := by
  rw [place]
  split
  next h' => rw [h'] at h; cases h
  next t' h' => rw [h'] at h; cases h; rfl

/-- The end of the sort, where no table is ready. -/
theorem place_of_stuck {needs : String → List String} {placed remaining : List String}
    (h : remaining.find? (fun t => (needs t).all placed.contains) = none) :
    place needs placed remaining = ([], remaining) := by
  rw [place]
  split
  next => rfl
  next t' h' => rw [h'] at h; cases h

/-- What is placed and what is stuck are together what remained. -/
theorem place_perm (needs : String → List String) (placed remaining : List String) :
    ((place needs placed remaining).1 ++ (place needs placed remaining).2).Perm remaining := by
  induction placed, remaining using place.induct needs with
  | case1 placed remaining h => rw [place_of_stuck h]; exact .refl _
  | case2 placed remaining t h _ _ _ _ ih =>
      rw [place_of_ready h]
      exact (ih.cons t).trans (List.perm_cons_erase (List.mem_of_find?_eq_some h)).symm

/-- The tables that are stuck are left as they are. -/
theorem place_sublist (needs : String → List String) (placed remaining : List String) :
    (place needs placed remaining).2.Sublist remaining := by
  induction placed, remaining using place.induct needs with
  | case1 placed remaining h => rw [place_of_stuck h]
  | case2 placed remaining t h _ _ _ _ ih =>
      rw [place_of_ready h]
      exact ih.trans List.erase_sublist

/-- **To sort** is to put the tables in some order. -/
theorem sort_perm (deps : Dependencies) (tables : List String) :
    ((deps.sort tables).1 ++ (deps.sort tables).2).Perm tables :=
  place_perm _ _ _

/-- The sort always answers, with the tables in another order. -/
theorem sorted_outcome {ε : Type} (deps : Dependencies) (tables : List String) :
    (sorted (ε := ε) deps tables).outcome =
      .ok ((deps.sort tables).1 ++ (deps.sort tables).2) := rfl

/-- A sort that ended well has the tables in another order. -/
theorem sorted_perm {ε : Type} {deps : Dependencies} {tables order : List String}
    (h : (sorted (ε := ε) deps tables).outcome = .ok order) : order.Perm tables := by
  cases h
  exact sort_perm deps tables

/-- A placed table comes after what it needs. -/
theorem place_ready {needs : String → List String} {placed remaining pre post : List String}
    {t u : String} (h : (place needs placed remaining).1 = pre ++ t :: post) (hu : u ∈ needs t) :
    u ∈ placed ∨ u ∈ pre := by
  induction placed, remaining using place.induct needs generalizing pre with
  | case1 placed remaining hnone =>
      rw [place_of_stuck hnone] at h
      exact absurd h (by simp)
  | case2 placed remaining first hready _ _ _ _ ih =>
      rw [place_of_ready hready] at h
      cases pre with
      | nil =>
          obtain ⟨rfl, -⟩ := List.cons.inj h
          have hall := List.find?_some hready
          exact .inl (by simpa using List.all_eq_true.mp hall u hu)
      | cons p pre =>
          obtain ⟨rfl, htail⟩ := List.cons.inj h
          rcases ih htail with hplaced | hpre
          · rcases List.mem_cons.mp hplaced with rfl | hplaced
            · exact .inr List.mem_cons_self
            · exact .inl hplaced
          · exact .inr (List.mem_cons_of_mem _ hpre)

/-- A table that is stuck needs one that is not placed. -/
theorem place_stuck {needs : String → List String} {placed remaining : List String} {t : String}
    (h : t ∈ (place needs placed remaining).2) :
    ∃ u ∈ needs t, u ∉ placed ∧ u ∉ (place needs placed remaining).1 := by
  induction placed, remaining using place.induct needs with
  | case1 placed remaining hnone =>
      rw [place_of_stuck hnone] at h ⊢
      have hwaits := List.find?_eq_none.mp hnone t h
      rw [List.all_eq_true] at hwaits
      push Not at hwaits
      obtain ⟨u, hu, hplaced⟩ := hwaits
      exact ⟨u, hu, by simpa using hplaced, List.not_mem_nil⟩
  | case2 placed remaining first hready _ _ _ _ ih =>
      rw [place_of_ready hready] at h ⊢
      obtain ⟨u, hu, hplaced, horder⟩ := ih h
      rw [List.mem_cons, not_or] at hplaced
      exact ⟨u, hu, hplaced.2, fun h' => (List.mem_cons.mp h').elim hplaced.1 horder⟩

/-! ### Without cycles -/

/-- A table depends on another one. -/
def DependsOn (deps : Dependencies) (t u : String) : Prop := u ∈ deps.of t ∧ u ≠ t

/-- No table depends on itself through others. -/
def Acyclic (deps : Dependencies) : Prop := ∀ t, ¬ Relation.TransGen deps.DependsOn t t

variable {deps : Dependencies} {tables : List String}

/-- No table depends on itself through others where each has a higher rank than those it depends
on. -/
theorem acyclic_of_rank (rank : String → Nat)
    (h : ∀ t u, deps.DependsOn t u → rank u < rank t) : deps.Acyclic :=
  not_transGen_self_of_rank rank h

theorem mem_within_iff {t u : String} :
    u ∈ deps.within tables t ↔ deps.DependsOn t u ∧ u ∈ tables := by
  simp only [within, DependsOn, List.mem_filter, Bool.and_eq_true, List.contains_iff_mem,
    bne_iff_ne, ne_eq]
  exact ⟨fun ⟨hdep, htables, hne⟩ => ⟨⟨hdep, hne⟩, htables⟩,
    fun ⟨⟨hdep, hne⟩, htables⟩ => ⟨hdep, htables, hne⟩⟩

/-- In a list that is not empty something is related to no member. -/
theorem exists_forall_not {α : Type} {r : α → α → Prop} (irrefl : ∀ a, ¬ r a a)
    (trans : ∀ a b c, r a b → r b c → r a c) {xs : List α} (hne : xs ≠ []) :
    ∃ x ∈ xs, ∀ y ∈ xs, ¬ r x y := by
  induction xs with
  | nil => exact absurd rfl hne
  | cons a xs ih =>
      cases hxs : xs with
      | nil => exact ⟨a, List.mem_cons_self, by simpa using irrefl a⟩
      | cons b bs =>
          obtain ⟨x, hx, hlast⟩ := ih (by simp [hxs])
          rw [← hxs]
          -- the last one of the rest is the last one, unless `a` is later still
          by_cases hxa : r x a
          · refine ⟨a, List.mem_cons_self, fun y hy hay => ?_⟩
            rcases List.mem_cons.mp hy with rfl | hy
            · exact irrefl _ hay
            · exact hlast y hy (trans x a y hxa hay)
          · refine ⟨x, List.mem_cons_of_mem _ hx, fun y hy hxy => ?_⟩
            rcases List.mem_cons.mp hy with rfl | hy
            · exact hxa hxy
            · exact hlast y hy hxy

/-- **Nothing is stuck** where no table depends on itself through others. -/
theorem sort_of_acyclic (h : deps.Acyclic) : (deps.sort tables).2 = [] := by
  by_contra hne
  obtain ⟨t, ht, hlast⟩ := exists_forall_not h (fun _ _ _ => Relation.TransGen.trans) hne
  obtain ⟨u, hu, -, horder⟩ := place_stuck ht
  obtain ⟨hdep, htables⟩ := mem_within_iff.mp hu
  have hmem := (deps.sort_perm tables).mem_iff.mpr htables
  exact hlast u ((List.mem_append.mp hmem).resolve_left horder) (.single hdep)

/-- **A table comes after those that it depends on.** -/
theorem mem_of_sort_eq (h : deps.Acyclic) {pre post : List String} {t u : String}
    (hsort : (deps.sort tables).1 ++ (deps.sort tables).2 = pre ++ t :: post)
    (hdep : deps.DependsOn t u) (hu : u ∈ tables) : u ∈ pre := by
  rw [sort_of_acyclic h, List.append_nil] at hsort
  exact (place_ready hsort (mem_within_iff.mpr ⟨hdep, hu⟩)).resolve_left List.not_mem_nil

end Dependencies

end Schemata
