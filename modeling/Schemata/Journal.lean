/-!
# Journal

What an operation leaves behind besides its answer: entries, in the order they were made.  A
`Journal ε α` is the entries and the outcome, an error of type `ε` or a value of type `α`; an
operation that fails keeps the entries it made before.

`entries` and `outcome` are the two views.  Sequencing appends the entries (`entries_bind`) and
sequences the outcomes (`outcome_bind`), so a statement about outcomes alone never has to look
at the entries.
-/

namespace Schemata

/-- How much an entry matters. -/
inductive Level where
  | debug
  | info
  | warning
  | error
  deriving DecidableEq, Repr

/-- One entry. -/
structure Entry where
  level : Level
  text : String
  deriving DecidableEq, Repr

/-- The entries made by an operation, and how it ended. -/
structure Journal (ε α : Type) where
  entries : List Entry
  outcome : Except ε α

namespace Journal

variable {ε α β : Type}

/-- A value, and no entries. -/
def ok (a : α) : Journal ε α := ⟨[], .ok a⟩

/-- An error, and no entries. -/
def fail (e : ε) : Journal ε α := ⟨[], .error e⟩

/-- The outcome `r`, and no entries. -/
def ofExcept (r : Except ε α) : Journal ε α := ⟨[], r⟩

/-- One entry. -/
def note (level : Level) (text : String) : Journal ε Unit := ⟨[⟨level, text⟩], .ok ()⟩

/-- Several entries. -/
def notes (es : List Entry) : Journal ε Unit := ⟨es, .ok ()⟩

/-- First `x`, then, if it did not fail, what `f` makes of its value. -/
protected def bind (x : Journal ε α) (f : α → Journal ε β) : Journal ε β :=
  match x.outcome with
  | .error e => ⟨x.entries, .error e⟩
  | .ok a => ⟨x.entries ++ (f a).entries, (f a).outcome⟩

instance : Monad (Journal ε) where
  pure := ok
  bind := Journal.bind

/-- The same journal with another type of errors. -/
def mapError {ε' : Type} (f : ε → ε') (x : Journal ε α) : Journal ε' α :=
  ⟨x.entries, x.outcome.mapError f⟩

@[simp] theorem outcome_pure (a : α) : (pure a : Journal ε α).outcome = .ok a := rfl

@[simp] theorem entries_pure (a : α) : (pure a : Journal ε α).entries = [] := rfl

@[simp] theorem outcome_bind (x : Journal ε α) (f : α → Journal ε β) :
    (x >>= f).outcome = x.outcome.bind fun a => (f a).outcome := by
  show (Journal.bind x f).outcome = _
  unfold Journal.bind
  cases x.outcome <;> rfl

theorem entries_bind (x : Journal ε α) (f : α → Journal ε β) :
    (x >>= f).entries =
      x.entries ++ match x.outcome with
        | .error _ => []
        | .ok a => (f a).entries := by
  show (Journal.bind x f).entries = _
  unfold Journal.bind
  cases x.outcome <;> simp

/-- A journal is its two views. -/
@[ext] theorem ext {x y : Journal ε α} (h : x.entries = y.entries) (h' : x.outcome = y.outcome) :
    x = y := by
  cases x; cases y; simp_all

instance : LawfulMonad (Journal ε) :=
  LawfulMonad.mk' _
    (fun x => by
      show Journal.bind x (fun a => ok a) = x
      unfold Journal.bind
      cases h : x.outcome <;> ext1 <;> simp_all [ok])
    (fun a f => by
      show Journal.bind (ok a) f = f a
      simp [Journal.bind, ok])
    (fun x f g => by
      show Journal.bind (Journal.bind x f) g = Journal.bind x fun a => Journal.bind (f a) g
      unfold Journal.bind
      cases hx : x.outcome with
      | error e => simp
      | ok a => cases hf : (f a).outcome <;> simp [hf])

end Journal

end Schemata
