import Mathlib.Data.List.Infix
import Schemata.Proofs.Outcome
import Schemata.Proofs.Schema.Recognition

/-!
# Proofs — schemas — rounds

How the reader goes through tokens, whether they are well formed or not.  Every rule leaves the
tokens that it has not taken, as they came (`Rule.Leaves`).  So the reading of a model is a row of
rounds, each of which takes a member or passes something over (`Reading.Round`), and the reading of
a schema a row of turns, each of which takes a model or goes on at the next one (`Reading.Turn`).

* `Reading.members_broken_iff`, `Reading.models_error_iff` — a number that is none ends the reading
  exactly if rounds and turns lead to it.
-/

namespace Schemata

/-! ### What rules leave -/

/-- The tokens that are left are the last of the given ones. -/
def Reading.IsLastOf {α : Type} (ts : List Token) : Reading α → Prop
  | .read _ rest => rest <:+ ts
  | .fault _ rest => rest <:+ ts
  | .broken _ => True

/-- The end of an end is an end. -/
theorem Reading.IsLastOf.trans {α : Type} {r : Reading α} {ts us : List Token} (h : r.IsLastOf us)
    (hus : us <:+ ts) : r.IsLastOf ts := by
  cases r with
  | read a rest => exact List.IsSuffix.trans h hus
  | fault e rest => exact List.IsSuffix.trans h hus
  | broken e => trivial

/-- A rule that takes tokens from the front only. -/
def Rule.Leaves {α : Type} (r : Rule α) : Prop := ∀ stop ts, (r stop ts).IsLastOf ts

namespace Rule

variable {α β : Type}

theorem leaves_pure (a : α) : Leaves (pure a) := fun _ _ => List.suffix_refl _

/-- Two rules in sequence leave an end of what they are given if each of them does. -/
theorem leaves_bind {r : Rule α} {f : α → Rule β} (hr : Leaves r) (hf : ∀ a, Leaves (f a)) :
    Leaves (r >>= f) := by
  intro stop ts
  have h := hr stop ts
  show (Rule.bind r f stop ts).IsLastOf ts
  unfold Rule.bind
  cases hread : r stop ts with
  | read a rest =>
      rw [hread] at h
      exact (hf a stop rest).trans h
  | fault e rest =>
      rw [hread] at h
      exact h
  | broken e => trivial

theorem leaves_ite {p : Prop} [Decidable p] {r q : Rule α} (hr : Leaves r) (hq : Leaves q) :
    Leaves (if p then r else q) := by
  split <;> assumption

theorem leaves_peek : Leaves peek := fun _ _ => List.suffix_refl _

theorem leaves_skip : Leaves skip := fun _ ts => List.tail_suffix ts

theorem leaves_fail (problem : SyntaxProblem) (t : Token) : Leaves (fail (α := α) problem t) :=
  fun _ _ => List.suffix_refl _

/-- One token, or none where it is not the expected one. -/
theorem leaves_expectWhere (test : TokenKind → Bool) (problem : SyntaxProblem) :
    Leaves (expectWhere test problem) :=
  leaves_bind leaves_peek fun t =>
    leaves_ite (leaves_bind leaves_skip fun _ => leaves_pure t) (leaves_fail problem t)

theorem leaves_expect (kind : TokenKind) (problem : SyntaxProblem) :
    Leaves (expect kind problem) := leaves_expectWhere _ _

theorem leaves_ofNumeral (r : Except NumeralFault α) : Leaves (ofNumeral r) := fun _ ts => by
  unfold ofNumeral
  cases r with
  | ok a => exact List.suffix_refl ts
  | error e => trivial

/-- What is left of a reading is an end of the tokens. -/
theorem suffix_of_read {r : Rule α} (hleaves : Leaves r) {stop : Token} {ts rest : List Token}
    {a : α} (h : r stop ts = .read a rest) : rest <:+ ts := by
  have hrest := hleaves stop ts
  rw [h] at hrest
  exact hrest

/-! ### What breaks the reading -/

variable {stop : Token} {ts : List Token} {e : NumeralFault}

/-- A sequence breaks in its first rule, or in the second after the first one was read. -/
theorem bind_broken_iff {r : Rule α} {f : α → Rule β} :
    (r >>= f) stop ts = .broken e ↔
      r stop ts = .broken e ∨ ∃ a mid, r stop ts = .read a mid ∧ f a stop mid = .broken e := by
  show Rule.bind r f stop ts = _ ↔ _
  unfold Rule.bind
  cases r stop ts <;> simp

theorem pure_ne_broken {a : α} : (pure a : Rule α) stop ts ≠ .broken e := nofun

/-- To expect a token breaks nothing. -/
theorem expectWhere_ne_broken {test : TokenKind → Bool} {problem : SyntaxProblem} :
    expectWhere test problem stop ts ≠ .broken e := by
  intro h
  unfold expectWhere at h
  rcases bind_broken_iff.mp h with h | ⟨t, mid, -, h⟩
  · cases h
  · split at h
    · cases h
    · cases h

/-- A rule that expects a token is broken where what comes after it is. -/
theorem expectWhere_bind_broken_iff {test : TokenKind → Bool} {problem : SyntaxProblem}
    {f : Token → Rule β} (hstop : test stop.kind = false) :
    (expectWhere test problem >>= f) stop ts = .broken e ↔
      ∃ t us, ts = t :: us ∧ test t.kind = true ∧ f t stop us = .broken e := by
  rw [bind_broken_iff, or_iff_right expectWhere_ne_broken]
  cases ts with
  | nil =>
      unfold expectWhere
      rw [peek_bind_nil, hstop]
      simp [fail_ne_read]
  | cons u us =>
      rw [expectWhere_cons]
      cases h : test u.kind <;> simp [h]

/-- A rule that expects a token breaks behind that token. -/
theorem expect_bind_broken_iff {kind : TokenKind} {problem : SyntaxProblem} {f : Token → Rule β}
    (hstop : stop.kind = .endOfInput) (hkind : kind ≠ .endOfInput) :
    (expect kind problem >>= f) stop ts = .broken e ↔
      ∃ t us, ts = t :: us ∧ t.kind = kind ∧ f t stop us = .broken e := by
  unfold expect
  rw [expectWhere_bind_broken_iff (by rw [hstop]; exact beq_eq_false_iff_ne.mpr hkind.symm)]
  simp only [beq_iff_eq]

end Rule

namespace Reading

open Rule

/-- The value of a default leaves an end. -/
theorem leaves_defaultValue : Leaves defaultValue := by
  refine leaves_bind leaves_peek fun t => leaves_ite ?_ (leaves_ite ?_ (leaves_ite ?_ ?_))
  · exact leaves_bind leaves_skip fun _ => leaves_bind (leaves_ofNumeral _) fun _ => leaves_pure _
  · exact leaves_bind leaves_skip fun _ => leaves_pure _
  · exact leaves_bind leaves_skip fun _ => leaves_pure _
  · split
    · exact leaves_bind leaves_skip fun _ => leaves_bind (leaves_expect _ _) fun _ =>
        leaves_bind (leaves_expect _ _) fun _ => leaves_pure _
    · exact leaves_fail _ _

theorem leaves_defaultArgument : Leaves defaultArgument :=
  leaves_bind (leaves_expect _ _) fun _ => leaves_bind leaves_defaultValue fun _ =>
    leaves_bind (leaves_expect _ _) fun _ => leaves_pure _

theorem leaves_relationKey : Leaves relationKey :=
  leaves_bind leaves_peek fun _ => leaves_ite
    (leaves_bind leaves_skip fun _ => leaves_bind (leaves_expectWhere _ _) fun _ =>
      leaves_bind (leaves_expect _ _) fun _ => leaves_pure _)
    (leaves_pure _)

/-- A decorator leaves an end, whatever its name is. -/
theorem leaves_decoratorNamed (t : Token) : Leaves (decoratorNamed t) := by
  unfold decoratorNamed
  split
  · exact leaves_bind leaves_relationKey fun _ => leaves_pure _
  · exact leaves_ite (leaves_pure _) (leaves_ite (leaves_pure _) (leaves_ite (leaves_pure _)
      (leaves_ite (leaves_bind leaves_defaultArgument fun _ => leaves_pure _) (leaves_fail _ _))))

theorem leaves_decorator (seen : List String) : Leaves (decorator seen) :=
  leaves_bind (leaves_expect _ _) fun t => leaves_ite (leaves_fail _ _)
    (leaves_bind (leaves_decoratorNamed t) fun _ => leaves_pure _)

/-- So do the decorators of a field. -/
theorem leaves_decorators (seen : List String) : Leaves (decorators seen) := by
  intro stop ts
  fun_induction decorators seen stop ts with
  | case1 => exact List.suffix_refl _
  | case2 seen t ts _ key d mid hd _ ds rest hds ih =>
      have hmid := leaves_decorator seen stop ts
      rw [hd] at hmid
      rw [hds] at ih
      exact (List.IsSuffix.trans ih hmid).trans (List.suffix_cons t ts)
  | case3 seen t ts _ key d mid hd _ e rest hds ih =>
      have hmid := leaves_decorator seen stop ts
      rw [hd] at hmid
      rw [hds] at ih
      exact (List.IsSuffix.trans ih hmid).trans (List.suffix_cons t ts)
  | case4 => trivial
  | case5 seen t ts _ e mid hd =>
      have hmid := leaves_decorator seen stop ts
      rw [hd] at hmid
      exact List.IsSuffix.trans hmid (List.suffix_cons t ts)
  | case6 => trivial
  | case7 => exact List.suffix_refl _

/-- An array mark leaves an end, be it there or not. -/
theorem leaves_arrayMark : Leaves arrayMark := fun _ ts => by
  unfold arrayMark
  split
  next a b rest =>
      split
      · exact (List.suffix_cons b rest).trans (List.suffix_cons a _)
      · exact List.suffix_refl _
  next => exact List.suffix_refl _

theorem leaves_shape (isArray : Bool) : Leaves (shape isArray) := by
  refine leaves_bind leaves_peek fun t => leaves_ite (leaves_bind leaves_skip fun _ => ?_)
    (leaves_fail _ _)
  split
  · exact leaves_pure _
  · exact fun _ _ => List.suffix_refl _

/-- A type leaves an end, be it a scalar, a model or a shape. -/
theorem leaves_plainType : Leaves plainType :=
  leaves_bind leaves_peek fun _ => leaves_ite
    (leaves_bind leaves_skip fun _ => leaves_pure _)
    (leaves_ite
      (leaves_bind leaves_skip fun _ => leaves_bind leaves_arrayMark fun _ =>
        leaves_bind (leaves_shape _) fun _ => leaves_pure _)
      (leaves_fail _ _))

theorem leaves_fieldNamed (name : Token) : Leaves (fieldNamed name) :=
  leaves_bind leaves_plainType fun _ => leaves_bind leaves_arrayMark fun _ =>
    leaves_bind (leaves_decorators []) fun _ => leaves_pure _

theorem leaves_uniqueMembers : Leaves uniqueMembers := by
  intro stop ts
  fun_induction uniqueMembers stop ts with
  | case3 t _ u us _ names rest heq ih =>
      rw [heq] at ih
      exact List.IsSuffix.trans ih ((List.suffix_cons u us).trans (List.suffix_cons t _))
  | case4 t _ u us _ e rest heq ih =>
      rw [heq] at ih
      exact List.IsSuffix.trans ih ((List.suffix_cons u us).trans (List.suffix_cons t _))
  | case6 t _ u us _ _ => exact (List.suffix_cons u us).trans (List.suffix_cons t _)
  | case7 t _ u us _ _ => exact List.suffix_cons t _
  | case1 | case8 => exact List.suffix_refl _
  | case2 => exact List.nil_suffix
  | case5 => trivial

/-- The arguments of a `@@unique` block leave an end. -/
theorem leaves_unique : Leaves unique :=
  leaves_bind (leaves_expect _ _) fun _ => leaves_bind (leaves_expect _ _) fun _ =>
    leaves_bind leaves_uniqueMembers fun _ => leaves_bind (leaves_expect _ _) fun _ =>
      leaves_pure _

/-- What follows the closing parenthesis is an end. -/
theorem afterParens_suffix (depth : Nat) (ts : List Token) : afterParens depth ts <:+ ts := by
  fun_induction afterParens depth ts with
  | case1 => exact List.suffix_refl _
  | case3 _ t ts => exact List.suffix_cons t ts
  | case2 _ t ts _ ih | case4 _ t ts _ _ _ ih | case5 _ t ts _ _ ih =>
      exact ih.trans (List.suffix_cons t ts)

/-- What follows the arguments of a block is an end. -/
theorem afterArguments_suffix (ts : List Token) : afterArguments ts <:+ ts := by
  fun_cases afterArguments ts with
  | case1 => exact List.suffix_refl _
  | case2 t ts => exact (afterParens_suffix 1 ts).trans (List.suffix_cons t ts)
  | case3 => exact List.suffix_refl _

/-! ### Inside a model -/

/-- One round of reading the members of a model: one is taken, or something is passed over with a
note. -/
inductive Round (stop : Token) : List Token → List Token → Prop
  | field {t : Token} {ts rest : List Token} {f : Field} (named : t.kind.isName)
      (read : fieldNamed t stop ts = .read f rest) : Round stop (t :: ts) rest
  | unique {t : Token} {ts rest : List Token} {names : List String} (kind : t.kind = .composite)
      (text : t.text = "@@unique") (read : Reading.unique stop ts = .read names rest) :
      Round stop (t :: ts) rest
  | unsupported {t : Token} {ts : List Token} (kind : t.kind = .composite)
      (text : t.text ≠ "@@unique") : Round stop (t :: ts) (afterArguments ts)
  | stray {t : Token} {ts : List Token} (brace : t.kind ≠ .closeBrace) (name : ¬ t.kind.isName)
      (block : t.kind ≠ .composite) (model : t.kind ≠ .model) : Round stop (t :: ts) ts

/-- Rounds, one after the other. -/
inductive Rounds (stop : Token) : List Token → List Token → Prop
  | refl (ts : List Token) : Rounds stop ts ts
  | more {ts us vs : List Token} (head : Round stop ts us) (tail : Rounds stop us vs) :
      Rounds stop ts vs

section

variable {name : String} {stop t : Token} {ts us rest : List Token}

/-- A round of the members leaves an end of the tokens. -/
theorem suffix_of_round (h : Round stop ts us) : us <:+ ts := by
  cases h with
  | @field t ts rest f named read =>
      have hrest := leaves_fieldNamed t stop ts
      rw [read] at hrest
      exact List.IsSuffix.trans hrest (List.suffix_cons t ts)
  | @unique t ts rest names kind text read =>
      have hrest := leaves_unique stop ts
      rw [read] at hrest
      exact List.IsSuffix.trans hrest (List.suffix_cons t ts)
  | @unsupported t ts kind text => exact (afterArguments_suffix ts).trans (List.suffix_cons t ts)
  | @stray t ts => exact List.suffix_cons t _

/-- So do any number of rounds. -/
theorem suffix_of_rounds (h : Rounds stop ts us) : us <:+ ts := by
  induction h with
  | refl => exact List.suffix_refl _
  | more head tail ih => exact ih.trans (suffix_of_round head)

/-! A member that is taken is put before the others, and a note before the other ones. -/

/-- A name opens a field. -/
theorem members_of_isName (named : t.kind.isName) :
    members name stop (t :: ts) =
      match fieldNamed t stop ts with
      | .read f rest => (members name stop rest).cons (.field f)
      | .fault e rest => ⟨[], .fault e rest⟩
      | .broken e => ⟨[], .broken e⟩ := by
  rw [members, if_neg (ne_of_isName named rfl), if_pos named]
  split <;> rename_i heq <;> simp only [heq]

/-- The word `@@unique` opens a list of members. -/
theorem members_of_unique (kind : t.kind = .composite) (text : t.text = "@@unique") :
    members name stop (t :: ts) =
      match Reading.unique stop ts with
      | .read names rest => (members name stop rest).cons (.unique names)
      | .fault e rest => ⟨[], .fault e rest⟩
      | .broken e => ⟨[], .broken e⟩ := by
  rw [members, if_neg (by simp [kind]), if_neg (by rw [kind]; decide), if_pos kind, if_pos text]
  split <;> rename_i heq <;> simp only [heq]

/-- A field that is read is one member more. -/
theorem members_field {f : Field} (named : t.kind.isName)
    (read : fieldNamed t stop ts = .read f rest) :
    members name stop (t :: ts) = (members name stop rest).cons (.field f) := by
  rw [members_of_isName named, read]

theorem members_unique {names : List String} (kind : t.kind = .composite)
    (text : t.text = "@@unique") (read : Reading.unique stop ts = .read names rest) :
    members name stop (t :: ts) = (members name stop rest).cons (.unique names) := by
  rw [members_of_unique kind text, read]

/-- Another block is passed over with its arguments, and noted. -/
theorem members_unsupported (kind : t.kind = .composite) (text : t.text ≠ "@@unique") :
    members name stop (t :: ts) =
      (members name stop (afterArguments ts)).after ⟨.unsupportedBlock t.text, t.position⟩ := by
  rw [members, if_neg (by simp [kind]), if_neg (by rw [kind]; decide), if_pos kind, if_neg text]

/-- A stray token is passed over, and noted. -/
theorem members_stray (brace : t.kind ≠ .closeBrace) (unnamed : ¬ t.kind.isName)
    (block : t.kind ≠ .composite) (model : t.kind ≠ .model) :
    members name stop (t :: ts) =
      (members name stop ts).after ⟨.strayMember t.text, t.position⟩ := by
  rw [members, if_neg brace, if_neg unnamed, if_neg block, if_neg model]

/-- What a round finds is put before what is found after it, and how the reading ends does not
change, unless a model is read. -/
structure Precedes (n n' : Noted (List Member)) : Prop where
  faults : ∃ es, n.faults = es ++ n'.faults
  fault : ∀ e rest, n'.reading = .fault e rest → n.reading = .fault e rest
  broken : ∀ e, n'.reading = .broken e → n.reading = .broken e

theorem Precedes.refl (n : Noted (List Member)) : Precedes n n :=
  ⟨⟨[], rfl⟩, fun _ _ h => h, fun _ h => h⟩

/-- What comes before the rounds comes before what each of them finds. -/
theorem Precedes.trans {n n' n'' : Noted (List Member)} (h : Precedes n n')
    (h' : Precedes n' n'') : Precedes n n'' := by
  obtain ⟨es, hes⟩ := h.faults
  obtain ⟨es', hes'⟩ := h'.faults
  exact ⟨⟨es ++ es', by rw [hes, hes', List.append_assoc]⟩,
    fun e rest hn => h.fault e rest (h'.fault e rest hn), fun e hn => h.broken e (h'.broken e hn)⟩

/-- A member that is taken changes neither the notes nor how the reading fails. -/
theorem precedes_cons (m : Member) (n : Noted (List Member)) : Precedes (n.cons m) n := by
  obtain ⟨faults, reading⟩ := n
  cases reading with
  | read ms rest => exact ⟨⟨[], rfl⟩, nofun, nofun⟩
  | fault e rest => exact ⟨⟨[], rfl⟩, fun _ _ h => h, nofun⟩
  | broken e => exact ⟨⟨[], rfl⟩, nofun, fun _ h => h⟩

theorem precedes_after (e : SyntaxFault) (n : Noted (List Member)) : Precedes (n.after e) n :=
  ⟨⟨[e], rfl⟩, fun _ _ h => h, fun _ h => h⟩

/-- What a round finds is put before what is found after it. -/
theorem precedes_of_round (h : Round stop ts us) :
    Precedes (members name stop ts) (members name stop us) := by
  cases h with
  | field named read => exact members_field named read ▸ precedes_cons _ _
  | unique kind text read => exact members_unique kind text read ▸ precedes_cons _ _
  | unsupported kind text => exact members_unsupported kind text ▸ precedes_after _ _
  | stray brace unnamed block model =>
      exact members_stray brace unnamed block model ▸ precedes_after _ _

/-- So is what any number of rounds find. -/
theorem precedes_of_rounds (h : Rounds stop ts us) :
    Precedes (members name stop ts) (members name stop us) := by
  induction h with
  | refl => exact .refl _
  | more head tail ih => exact (precedes_of_round head).trans ih

/-- The names of a `@@unique` block break nothing, as there is no number among them. -/
theorem uniqueMembers_ne_broken {e : NumeralFault} : uniqueMembers stop ts ≠ .broken e := by
  intro h
  fun_induction uniqueMembers stop ts with
  | case5 t _ u us _ e' heq ih => exact ih (h ▸ heq)
  | case1 | case2 | case3 | case4 | case6 | case7 | case8 => cases h

theorem unique_ne_broken {e : NumeralFault} : Reading.unique stop ts ≠ .broken e := by
  intro h
  unfold Reading.unique at h
  rcases bind_broken_iff.mp h with h | ⟨_, _, -, h⟩
  · exact expectWhere_ne_broken h
  rcases bind_broken_iff.mp h with h | ⟨_, _, -, h⟩
  · exact expectWhere_ne_broken h
  rcases bind_broken_iff.mp h with h | ⟨_, _, -, h⟩
  · exact uniqueMembers_ne_broken h
  rcases bind_broken_iff.mp h with h | ⟨_, _, -, h⟩
  · exact expectWhere_ne_broken h
  · exact pure_ne_broken h

/-- **A number that is none** ends the reading of members exactly if rounds lead to its field. -/
theorem members_broken_iff {e : NumeralFault} :
    (members name stop ts).reading = .broken e ↔
      ∃ t us, Rounds stop ts (t :: us) ∧ t.kind.isName ∧ fieldNamed t stop us = .broken e := by
  constructor
  · intro h
    have hmore : ∀ {ts us : List Token}, Round stop ts us →
        (∃ t vs, Rounds stop us (t :: vs) ∧ t.kind.isName ∧ fieldNamed t stop vs = .broken e) →
        ∃ t vs, Rounds stop ts (t :: vs) ∧ t.kind.isName ∧ fieldNamed t stop vs = .broken e :=
      fun head ⟨t, vs, tail, named, hfield⟩ => ⟨t, vs, .more head tail, named, hfield⟩
    have hcons : ∀ {m : Member} {n : Noted (List Member)}, (n.cons m).reading = .broken e →
        n.reading = .broken e := by
      rintro m ⟨faults, reading⟩ h
      cases reading <;> first | exact h | cases h
    fun_induction members name stop ts with
    | case1 => cases h
    | case2 => cases h
    | case3 t ts _ named f rest hf _ ih => exact hmore (.field named hf) (ih (hcons h))
    | case4 => cases h
    | case5 t ts _ named e' hf =>
        cases h
        exact ⟨t, ts, .refl _, named, hf⟩
    | case6 t ts _ _ kind text names rest hu _ ih => exact hmore (.unique kind text hu) (ih (hcons h))
    | case7 => cases h
    | case8 t ts _ _ kind text e' hu => exact absurd hu unique_ne_broken
    | case9 t ts _ _ kind text _ ih => exact hmore (.unsupported kind text) (ih h)
    | case10 => cases h
    | case11 t ts brace unnamed block model _ ih =>
        exact hmore (.stray brace unnamed block model) (ih h)
  · rintro ⟨t, us, hrounds, named, hfield⟩
    refine (precedes_of_rounds hrounds).broken e ?_
    rw [members_of_isName named, hfield]

/-- What is left of the members is an end of the tokens, however they end. -/
theorem members_isLastOf : (members name stop ts).reading.IsLastOf ts := by
  have hcons : ∀ {m : Member} {n : Noted (List Member)} {us : List Token},
      n.reading.IsLastOf us → (n.cons m).reading.IsLastOf us := by
    rintro m ⟨faults, reading⟩ us h
    cases reading <;> exact h
  fun_induction members name stop ts with
  | case1 => exact List.suffix_refl _
  | case2 t ts => exact List.suffix_cons t ts
  | case3 t ts _ _ f rest hf _ ih =>
      have hrest := leaves_fieldNamed t stop ts
      rw [hf] at hrest
      exact (hcons ih).trans (List.IsSuffix.trans hrest (List.suffix_cons t ts))
  | case4 t ts _ _ e left hf =>
      have hleft := leaves_fieldNamed t stop ts
      rw [hf] at hleft
      exact List.IsSuffix.trans hleft (List.suffix_cons t ts)
  | case6 t ts _ _ _ _ names rest hu _ ih =>
      have hrest := leaves_unique stop ts
      rw [hu] at hrest
      exact (hcons ih).trans (List.IsSuffix.trans hrest (List.suffix_cons t ts))
  | case7 t ts _ _ _ _ e left hu =>
      have hleft := leaves_unique stop ts
      rw [hu] at hleft
      exact List.IsSuffix.trans hleft (List.suffix_cons t ts)
  | case9 t ts _ _ _ _ _ ih =>
      exact ih.trans ((afterArguments_suffix ts).trans (List.suffix_cons t ts))
  | case10 => exact List.suffix_refl _
  | case11 t ts _ _ _ _ _ ih => exact ih.trans (List.suffix_cons t ts)
  | case5 | case8 => trivial

/-! ### From model to model -/

/-- Without the word `model` no model is read. -/
theorem model_of_ne (h : t.kind ≠ .model) :
    model stop (t :: ts) = ⟨[], .fault ⟨.expectedModel, t.position⟩ (t :: ts)⟩ := by
  have hhead : modelHead stop (t :: ts) = .fault ⟨.expectedModel, t.position⟩ (t :: ts) := by
    show Rule.bind (expect .model .expectedModel) _ stop (t :: ts) = _
    unfold Rule.bind expect
    rw [expectWhere_cons, if_neg (by simpa using h)]
  unfold model
  rw [hhead]

/-- A model takes its first token, whatever becomes of it. -/
theorem model_isLastOf (h : t.kind = .model) : (model stop (t :: ts)).reading.IsLastOf ts := by
  have hhead : (modelHead stop (t :: ts)).IsLastOf ts := by
    unfold modelHead
    rw [expect_bind_cons h]
    exact leaves_bind (leaves_expect _ _) (fun _ => leaves_bind (leaves_expect _ _)
      fun _ => leaves_pure _) stop ts
  unfold model
  cases hread : modelHead stop (t :: ts) with
  | read head rest =>
      rw [hread] at hhead
      have hmembers : (members head.2.text stop rest).reading.IsLastOf ts :=
        members_isLastOf.trans hhead
      dsimp only
      cases hms : members head.2.text stop rest with
      | mk faults reading =>
          rw [hms] at hmembers
          cases reading <;> exact hmembers
  | fault e rest =>
      rw [hread] at hhead
      exact hhead
  | broken e => trivial

theorem model_isLastOf_cons : (model stop (t :: ts)).reading.IsLastOf (t :: ts) := by
  by_cases hmodel : t.kind = .model
  · exact (model_isLastOf hmodel).trans (List.suffix_cons t ts)
  · rw [model_of_ne hmodel]
    exact List.suffix_refl _

theorem synchronize_suffix (ts : List Token) : synchronize ts <:+ ts := List.dropWhile_suffix _

/-- After a model there are fewer tokens, and after a fault as well. -/
theorem length_lt_of_model {faults : List SyntaxFault} {m : Model}
    (h : model stop (t :: ts) = ⟨faults, .read m rest⟩) : rest.length < (t :: ts).length := by
  by_cases hmodel : t.kind = .model
  · have hrest : (model stop (t :: ts)).reading.IsLastOf ts := model_isLastOf hmodel
    rw [h] at hrest
    exact Nat.lt_succ_of_le (List.IsSuffix.length_le hrest)
  · rw [model_of_ne hmodel] at h
    cases h

/-- Looking for the next model passes over one token at least. -/
theorem length_synchronize_lt {faults : List SyntaxFault} {e : SyntaxFault}
    (h : model stop (t :: ts) = ⟨faults, .fault e rest⟩) :
    (synchronize rest).length < (t :: ts).length := by
  by_cases hmodel : t.kind = .model
  · have hrest : (model stop (t :: ts)).reading.IsLastOf ts := model_isLastOf hmodel
    rw [h] at hrest
    exact Nat.lt_succ_of_le (((synchronize_suffix rest).trans hrest).length_le)
  · rw [model_of_ne hmodel] at h
    cases h
    rw [synchronize, List.dropWhile_cons_of_pos (by simpa using hmodel)]
    exact Nat.lt_succ_of_le (synchronize_suffix ts).length_le

/-- What is found first is put before what is found afterwards. -/
def found (ms : List Model) (es : List SyntaxFault) :
    List Model × List SyntaxFault → List Model × List SyntaxFault :=
  fun r => (ms ++ r.1, es ++ r.2)

/-- After a model that is read the next ones are read. -/
theorem models_of_read {faults : List SyntaxFault} {m : Model}
    (h : model stop (t :: ts) = ⟨faults, .read m rest⟩) :
    Reading.models stop (t :: ts) = (Reading.models stop rest).map (found [m] faults) := by
  rw [Reading.models, h]
  dsimp only
  rw [if_pos (length_lt_of_model h)]
  cases Reading.models stop rest <;> rfl

/-- After a fault the next model is looked for. -/
theorem models_of_fault {faults : List SyntaxFault} {e : SyntaxFault}
    (h : model stop (t :: ts) = ⟨faults, .fault e rest⟩) :
    Reading.models stop (t :: ts) =
      (Reading.models stop (synchronize rest)).map (found [] (faults ++ [e])) := by
  rw [Reading.models, h]
  dsimp only
  rw [if_pos (length_synchronize_lt h)]
  cases Reading.models stop (synchronize rest) <;> rfl

/-- A number that breaks a model breaks the whole reading. -/
theorem models_of_broken {e : NumeralFault} (h : (model stop (t :: ts)).reading = .broken e) :
    Reading.models stop (t :: ts) = .error e := by
  rw [Reading.models]
  cases hmodel : model stop (t :: ts) with
  | mk faults reading =>
      rw [hmodel] at h
      cases h
      rfl

/-- One turn of reading a schema: a model is taken, or reading goes on at the next one. -/
inductive Turn (stop : Token) : List Token → List Token → Prop
  | read {t : Token} {ts rest : List Token} {faults : List SyntaxFault} {m : Model}
      (model : model stop (t :: ts) = ⟨faults, .read m rest⟩) : Turn stop (t :: ts) rest
  | fault {t : Token} {ts rest : List Token} {faults : List SyntaxFault} {e : SyntaxFault}
      (model : model stop (t :: ts) = ⟨faults, .fault e rest⟩) :
      Turn stop (t :: ts) (synchronize rest)

/-- Turns, one after the other. -/
inductive Turns (stop : Token) : List Token → List Token → Prop
  | refl (ts : List Token) : Turns stop ts ts
  | more {ts us vs : List Token} (head : Turn stop ts us) (tail : Turns stop us vs) :
      Turns stop ts vs

/-- A turn of the models leaves an end of the tokens. -/
theorem suffix_of_turn (h : Turn stop ts us) : us <:+ ts := by
  cases h with
  | @read t ts rest faults m hmodel =>
      have h : (model stop (t :: ts)).reading.IsLastOf (t :: ts) := model_isLastOf_cons
      rw [hmodel] at h
      exact h
  | @fault t ts rest faults e hmodel =>
      have h : (model stop (t :: ts)).reading.IsLastOf (t :: ts) := model_isLastOf_cons
      rw [hmodel] at h
      exact (synchronize_suffix rest).trans h

/-- So do any number of turns. -/
theorem suffix_of_turns (h : Turns stop ts us) : us <:+ ts := by
  induction h with
  | refl => exact List.suffix_refl _
  | more head tail ih => exact ih.trans (suffix_of_turn head)

/-- **A number that is none** ends the reading of models exactly if turns lead to its model. -/
theorem models_error_iff {e : NumeralFault} :
    Reading.models stop ts = .error e ↔
      ∃ t us, Turns stop ts (t :: us) ∧ (model stop (t :: us)).reading = .broken e := by
  constructor
  · intro h
    induction hn : ts.length using Nat.strong_induction_on generalizing ts with
    | _ n ih =>
        cases ts with
        | nil => rw [Reading.models] at h; cases h
        | cons t ts =>
            cases hmodel : model stop (t :: ts) with
            | mk faults reading =>
                cases reading with
                | read m rest =>
                    rw [models_of_read hmodel, Except.map_eq_error_iff] at h
                    obtain ⟨u, us, hturns, hus⟩ := ih _ (hn ▸ length_lt_of_model hmodel) h rfl
                    exact ⟨u, us, .more (.read hmodel) hturns, hus⟩
                | fault e' rest =>
                    rw [models_of_fault hmodel, Except.map_eq_error_iff] at h
                    obtain ⟨u, us, hturns, hus⟩ := ih _ (hn ▸ length_synchronize_lt hmodel) h rfl
                    exact ⟨u, us, .more (.fault hmodel) hturns, hus⟩
                | broken e' =>
                    have hbroken : (model stop (t :: ts)).reading = .broken e' := by rw [hmodel]
                    rw [models_of_broken hbroken] at h
                    cases h
                    exact ⟨t, ts, .refl _, hbroken⟩
  · rintro ⟨t, us, hturns, hus⟩
    generalize hvs : t :: us = vs at hturns
    induction hturns with
    | refl vs =>
        subst hvs
        exact models_of_broken hus
    | more head tail ih =>
        cases head with
        | read hmodel => rw [models_of_read hmodel, Except.map_eq_error_iff]; exact ih hvs
        | fault hmodel => rw [models_of_fault hmodel, Except.map_eq_error_iff]; exact ih hvs

end

end Reading

end Schemata
