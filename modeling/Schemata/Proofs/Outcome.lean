import Mathlib.Data.List.Forall2
import Schemata.Journal

/-!
# Proofs — outcomes

When a journal ends well.  The entries play no part here: a row of operations ends well exactly
when each of them does (`Journal.bind_ok_iff`, `Journal.mapM_ok_iff`), and the values come in
the order of the operations, a list beside a list.  An operation whose outcome is known without
the journal, as a condition and a value, keeps that form along a list
(`Journal.mapM_ok_iff_of_spec`).  Two journals that go side by side, with the same entries and
values that are related, do so along a list too (`Journal.Alike.mapM`).
-/

namespace Schemata

/-! ### A list beside a list -/

section

variable {α β γ : Type} {R : α → β → Prop} {xs : List α} {ys : List β}

/-- What is related element by element has a partner for each element. -/
theorem exists_of_forall₂ (h : List.Forall₂ R xs ys) {x : α} (hx : x ∈ xs) : ∃ y ∈ ys, R x y := by
  induction h with
  | nil => cases hx
  | cons hxy _ ih =>
      rcases List.mem_cons.mp hx with rfl | hx
      · exact ⟨_, List.mem_cons_self, hxy⟩
      · obtain ⟨y, hy, hr⟩ := ih hx
        exact ⟨y, List.mem_cons_of_mem _ hy, hr⟩

/-- Partners for each element make a list of partners. -/
theorem exists_forall₂ (h : ∀ x ∈ xs, ∃ y, R x y) : ∃ ys, List.Forall₂ R xs ys := by
  induction xs with
  | nil => exact ⟨[], .nil⟩
  | cons x xs ih =>
      obtain ⟨⟨y, hy⟩, hxs⟩ := List.forall_mem_cons.mp h
      obtain ⟨ys, hys⟩ := ih hxs
      exact ⟨y :: ys, .cons hy hys⟩

/-- Lists whose elements have the same images have the same image. -/
theorem map_eq_of_forall₂ {f : α → γ} {g : β → γ}
    (h : List.Forall₂ (fun x y => f x = g y) xs ys) : xs.map f = ys.map g := by
  rw [← List.forall₂_eq_eq_eq, List.forall₂_map_left_iff, List.forall₂_map_right_iff]
  exact h

end

/-! ### Outcomes -/

namespace Except

variable {ε α β : Type}

theorem toOption_eq_some_iff {x : Except ε α} {a : α} : x.toOption = some a ↔ x = .ok a := by
  cases x <;> simp [Except.toOption]

/-- A computation succeeds exactly if its parts do, one after the other. -/
theorem bind_eq_ok_iff {x : Except ε α} {f : α → Except ε β} {b : β} :
    x.bind f = .ok b ↔ ∃ a, x = .ok a ∧ f a = .ok b := by
  cases x with
  | error e =>
      constructor
      · intro h; cases h
      · rintro ⟨a, ha, -⟩; cases ha
  | ok a => exact ⟨fun h => ⟨a, rfl, h⟩, fun ⟨a', ha, h⟩ => by cases ha; exact h⟩

/-- A computation fails exactly if its first part fails, or the second one after it. -/
theorem bind_eq_error_iff {x : Except ε α} {f : α → Except ε β} {e : ε} :
    x.bind f = .error e ↔ x = .error e ∨ ∃ a, x = .ok a ∧ f a = .error e := by
  cases x with
  | error e' => simp [Except.bind]
  | ok a => simp [Except.bind]

/-- To map the value leaves the errors. -/
theorem map_eq_error_iff {x : Except ε α} {f : α → β} {e : ε} :
    x.map f = .error e ↔ x = .error e := by
  cases x <;> simp [Except.map]

theorem map_eq_ok_iff {x : Except ε α} {f : α → β} {b : β} :
    x.map f = .ok b ↔ ∃ a, x = .ok a ∧ f a = b := by
  cases x <;> simp [Except.map]

/-- To map the error leaves the values. -/
theorem mapError_eq_ok_iff {ε' : Type} {x : Except ε α} {f : ε → ε'} {a : α} :
    x.mapError f = .ok a ↔ x = .ok a := by
  cases x <;> simp [Except.mapError]

/-- A walk along a list ends well when every step does. -/
theorem mapM_ok_iff {f : α → Except ε β} {xs : List α} {ys : List β} :
    xs.mapM f = .ok ys ↔ List.Forall₂ (fun x y => f x = .ok y) xs ys := by
  induction xs generalizing ys with
  | nil =>
      rw [List.mapM_nil, List.forall₂_nil_left_iff]
      exact ⟨fun h => by cases h; rfl, fun h => by rw [h]; rfl⟩
  | cons x xs ih =>
      rw [List.mapM_cons, List.forall₂_cons_left_iff]
      show (f x).bind (fun y => (xs.mapM f).bind fun ys => .ok (y :: ys)) = _ ↔ _
      rw [bind_eq_ok_iff]
      constructor
      · rintro ⟨y, hy, h⟩
        obtain ⟨ys', hys, h⟩ := bind_eq_ok_iff.mp h
        cases h
        exact ⟨y, ys', hy, ih.mp hys, rfl⟩
      · rintro ⟨y, ys', hy, hys, rfl⟩
        exact ⟨y, hy, bind_eq_ok_iff.mpr ⟨ys', ih.mpr hys, rfl⟩⟩

end Except

namespace Journal

variable {ε α β : Type}

/-- A journal ends well exactly if its parts do, one after the other. -/
theorem bind_ok_iff {x : Journal ε α} {f : α → Journal ε β} {b : β} :
    (x >>= f).outcome = .ok b ↔ ∃ a, x.outcome = .ok a ∧ (f a).outcome = .ok b := by
  rw [outcome_bind, Except.bind_eq_ok_iff]

theorem outcome_mapError {ε' : Type} (f : ε → ε') (x : Journal ε α) :
    (x.mapError f).outcome = x.outcome.mapError f := rfl

theorem pure_ok_iff {a b : α} : (pure a : Journal ε α).outcome = .ok b ↔ a = b :=
  ⟨fun h => by cases h; rfl, fun h => by rw [h]; rfl⟩

/-- To map the value of a journal succeeds exactly where there is one. -/
theorem map_ok_iff {f : α → β} {x : Journal ε α} {b : β} :
    (f <$> x).outcome = .ok b ↔ ∃ a, x.outcome = .ok a ∧ f a = b := by
  rw [map_eq_pure_bind, bind_ok_iff]
  simp only [pure_ok_iff]

/-- To map the value of a journal leaves its error. -/
theorem map_error_iff {f : α → β} {x : Journal ε α} {e : ε} :
    (f <$> x).outcome = .error e ↔ x.outcome = .error e := by
  rw [map_eq_pure_bind, outcome_bind, Except.bind_eq_error_iff]
  simp

theorem ofExcept_ok_iff {r : Except ε α} {a : α} : (ofExcept r).outcome = .ok a ↔ r = .ok a :=
  Iff.rfl

theorem fail_ne_ok {e : ε} {a : α} : (fail e : Journal ε α).outcome ≠ .ok a := fun h => nomatch h

/-- A walk along a list ends well when every step does. -/
theorem mapM_ok_iff {f : α → Journal ε β} {xs : List α} {ys : List β} :
    (xs.mapM f).outcome = .ok ys ↔ List.Forall₂ (fun x y => (f x).outcome = .ok y) xs ys := by
  induction xs generalizing ys with
  | nil =>
      rw [List.mapM_nil, List.forall₂_nil_left_iff, pure_ok_iff]
      exact eq_comm
  | cons x xs ih =>
      rw [List.mapM_cons, List.forall₂_cons_left_iff, bind_ok_iff]
      constructor
      · rintro ⟨y, hy, h⟩
        obtain ⟨ys', hys, h⟩ := bind_ok_iff.mp h
        exact ⟨y, ys', hy, ih.mp hys, (pure_ok_iff.mp h).symm⟩
      · rintro ⟨y, ys', hy, hys, rfl⟩
        exact ⟨y, hy, bind_ok_iff.mpr ⟨ys', ih.mpr hys, rfl⟩⟩

/-- A step ends well where `P` holds and then gives `g`; so does a walk along a list. -/
theorem mapM_ok_iff_of_spec {f : α → Journal ε β} {P : α → Prop} {g : α → β} {xs : List α}
    (spec : ∀ x ∈ xs, ∀ y, (f x).outcome = .ok y ↔ P x ∧ y = g x) {ys : List β} :
    (xs.mapM f).outcome = .ok ys ↔ (∀ x ∈ xs, P x) ∧ ys = xs.map g := by
  rw [mapM_ok_iff]
  induction xs generalizing ys with
  | nil => simp
  | cons x xs ih =>
      have ih' := @ih fun z hz => spec z (List.mem_cons_of_mem x hz)
      simp only [List.forall₂_cons_left_iff, spec x List.mem_cons_self, ih', List.forall_mem_cons,
        List.map_cons]
      constructor
      · rintro ⟨_, _, ⟨hx, rfl⟩, ⟨hxs, rfl⟩, rfl⟩
        exact ⟨⟨hx, hxs⟩, rfl⟩
      · rintro ⟨⟨hx, hxs⟩, rfl⟩
        exact ⟨_, _, ⟨hx, rfl⟩, ⟨hxs, rfl⟩, rfl⟩

/-- What follows a journal matters only at the values that the journal ends in. -/
theorem bind_congr {x : Journal ε α} {f g : α → Journal ε β}
    (h : ∀ a, x.outcome = .ok a → f a = g a) : x >>= f = x >>= g := by
  obtain ⟨entries, outcome⟩ := x
  cases outcome with
  | error e => rfl
  | ok a =>
      show (⟨entries ++ (f a).entries, (f a).outcome⟩ : Journal ε β) =
        ⟨entries ++ (g a).entries, (g a).outcome⟩
      rw [h a rfl]

/-- A walk along a list is that of any function that does the same to its elements. -/
theorem mapM_congr {f g : α → Journal ε β} {xs : List α} (h : ∀ x ∈ xs, f x = g x) :
    xs.mapM f = xs.mapM g := by
  induction xs with
  | nil => rfl
  | cons x xs ih =>
      obtain ⟨hx, hxs⟩ := List.forall_mem_cons.mp h
      rw [List.mapM_cons, List.mapM_cons, hx, ih hxs]

/-! ### How a journal fails -/

/-- Whatever error there may be, it is one of `P`. -/
def FailsWith (x : Journal ε α) (P : ε → Prop) : Prop := ∀ e, x.outcome = .error e → P e

variable {P : ε → Prop}

theorem FailsWith.of_ok {x : Journal ε α} {a : α} (h : x.outcome = .ok a) : x.FailsWith P :=
  fun e he => by rw [h] at he; cases he

theorem FailsWith.mono {Q : ε → Prop} {x : Journal ε α} (h : x.FailsWith P)
    (hPQ : ∀ e, P e → Q e) : x.FailsWith Q := fun e he => hPQ e (h e he)

theorem failsWith_pure (a : α) : (pure a : Journal ε α).FailsWith P := .of_ok rfl

/-- A journal fails as its parts do. -/
theorem FailsWith.bind {x : Journal ε α} {f : α → Journal ε β} (hx : x.FailsWith P)
    (hf : ∀ a, x.outcome = .ok a → (f a).FailsWith P) : (x >>= f).FailsWith P := by
  intro e he
  rw [outcome_bind, Except.bind_eq_error_iff] at he
  rcases he with he | ⟨a, ha, he⟩
  · exact hx e he
  · exact hf a ha e he

/-- A walk along a list fails as its steps do. -/
theorem FailsWith.mapM {f : α → Journal ε β} {xs : List α} (hf : ∀ x ∈ xs, (f x).FailsWith P) :
    (xs.mapM f).FailsWith P := by
  induction xs with
  | nil => exact failsWith_pure []
  | cons x xs ih =>
      rw [List.mapM_cons]
      obtain ⟨hx, hxs⟩ := List.forall_mem_cons.mp hf
      exact hx.bind fun y _ => (ih hxs).bind fun ys _ => failsWith_pure _

/-! ### Another type of errors -/

variable {ε' : Type} (g : ε → ε')

@[simp] theorem mapError_pure (a : α) : (pure a : Journal ε α).mapError g = pure a := rfl

/-- To map the error is to map that of each part. -/
theorem mapError_bind (x : Journal ε α) (f : α → Journal ε β) :
    (x >>= f).mapError g = x.mapError g >>= fun a => (f a).mapError g := by
  obtain ⟨entries, outcome⟩ := x
  cases outcome with
  | error e => rfl
  | ok a => rfl

/-- To map the error of a walk along a list is to map that of each step. -/
theorem mapError_mapM (f : α → Journal ε β) (xs : List α) :
    (xs.mapM f).mapError g = xs.mapM fun x => (f x).mapError g := by
  induction xs with
  | nil => rfl
  | cons x xs ih => simp only [List.mapM_cons, mapError_bind, mapError_pure, ih]

theorem mapError_map (f : α → β) (x : Journal ε α) :
    (f <$> x).mapError g = f <$> x.mapError g := by
  simp only [map_eq_pure_bind, mapError_bind, mapError_pure]

/-! ### Two journals side by side -/

/-- Two journals with the same entries that end alike: in the same error, or in related values. -/
inductive Alike (R : α → α → Prop) : Journal ε α → Journal ε α → Prop
  | failed (entries : List Entry) (e : ε) : Alike R ⟨entries, .error e⟩ ⟨entries, .error e⟩
  | ended (entries : List Entry) {a b : α} (related : R a b) :
      Alike R ⟨entries, .ok a⟩ ⟨entries, .ok b⟩

variable {R : α → α → Prop} {S : β → β → Prop}

/-- A journal is alike to itself. -/
theorem Alike.refl (hR : ∀ a, R a a) (x : Journal ε α) : x.Alike R x := by
  obtain ⟨entries, e | a⟩ := x
  · exact .failed entries e
  · exact .ended entries (hR a)

/-- Journals end alike if their parts do, one after the other. -/
theorem Alike.bind {x y : Journal ε α} {f g : α → Journal ε β} (h : x.Alike R y)
    (hfg : ∀ a b, R a b → (f a).Alike S (g b)) : (x >>= f).Alike S (y >>= g) := by
  cases h with
  | failed entries e => exact .failed entries e
  | @ended entries a b related =>
      show Alike S ⟨entries ++ (f a).entries, (f a).outcome⟩
        ⟨entries ++ (g b).entries, (g b).outcome⟩
      have hstep := hfg a b related
      generalize f a = x at hstep ⊢
      generalize g b = y at hstep ⊢
      cases hstep with
      | failed more e => exact .failed _ e
      | ended more related => exact .ended _ related

/-- A walk along a list ends alike if every step does. -/
theorem Alike.mapM {f g : α → Journal ε β} {xs : List α} (h : ∀ x ∈ xs, (f x).Alike S (g x)) :
    (xs.mapM f).Alike (List.Forall₂ S) (xs.mapM g) := by
  induction xs with
  | nil => exact .ended [] .nil
  | cons x xs ih =>
      obtain ⟨hx, hxs⟩ := List.forall_mem_cons.mp h
      rw [List.mapM_cons, List.mapM_cons]
      exact hx.bind fun y z hyz => (ih hxs).bind fun ys zs hyzs => .ended [] (.cons hyz hyzs)

end Journal

end Schemata
