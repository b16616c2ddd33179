import Mathlib.Data.List.TakeWhile
import Schemata.Proofs.Schema.Cursor
import Schemata.Proofs.Schema.Isolation

/-!
# Proofs — schemas — walks

Walks that follow rules.  A rule is given the tokens that are left before the end of the input, a
walk a cursor among all tokens of a row.  A walk follows a reading (`Walk.Follows`) if wherever the
cursor stands before the same tokens, it ends as the reading does: with its value or its fault,
before the tokens that the reading leaves, and with the same faults noted.

On its way it has made one step from each place between, in order, and only moves that go forward
(`Cursor.Reaches`): a round that is gone on with has moved the cursor, one over models has in any
case, and nothing was dropped (`Move.IsForward`).  So a walk that follows a reading cannot come
behind the end of the input, where no tokens are left.

* `Walk.Follows.bind`, `Walk.Follows.recover` — walks that follow readings are composed as these.
* `Walk.follows_loop_yield` — a loop follows a reading if its first round follows a part of it that
  leaves fewer tokens, and the loop the rest of it from there.
-/

namespace Schemata

/-! ### Rows -/

namespace Row

/-- The place of the first end of the input. -/
def endPlace (row : Row) : Nat := row.front.findIdx fun t => t.kind == .endOfInput

/-- The tokens before the first end of the input. -/
def inner (row : Row) : List Token := row.front.take row.endPlace

/-- The first end of the input. -/
def stop (row : Row) : Token := row.token row.endPlace

variable {row : Row} {place : Nat} {t : Token} {ts : List Token}

theorem endPlace_le (row : Row) : row.endPlace ≤ row.front.length := List.findIdx_le_length

theorem length_inner (row : Row) : row.inner.length = row.endPlace :=
  List.length_take_of_le row.endPlace_le

/-- The token at a place before the end is the first of those that are left there. -/
theorem token_of_drop (h : row.inner.drop place = t :: ts) :
    row.token place = t ∧ place < row.front.length ∧ t.kind ≠ .endOfInput := by
  have hplace : row.inner[place]? = some t := by rw [← List.head?_drop, h, List.head?_cons]
  obtain ⟨hinner, -⟩ := List.getElem?_eq_some_iff.mp hplace
  rw [length_inner] at hinner
  rw [inner, List.getElem?_take_of_lt hinner] at hplace
  obtain ⟨hlt, rfl⟩ := List.getElem?_eq_some_iff.mp hplace
  refine ⟨by rw [token, hplace, Option.getD_some], hlt, ?_⟩
  simpa using List.not_of_lt_findIdx hinner

/-- What ends the input is an end of the input. -/
theorem kind_stop (hlast : row.last.kind = .endOfInput) : row.stop.kind = .endOfInput := by
  unfold stop token
  cases h : row.front[row.endPlace]? with
  | none => exact hlast
  | some t =>
      obtain ⟨hlt, rfl⟩ := List.getElem?_eq_some_iff.mp h
      have hkind := List.findIdx_getElem (p := fun t : Token => t.kind == .endOfInput) (w := hlt)
      exact eq_of_beq hkind

/-- What the rules read of a list, by the place of the first end of the input. -/
theorem ofList?_eq (ts : List Token) :
    Tokens.ofList? ts = ts.getLast?.map fun last =>
      ⟨ts.take (ts.findIdx fun t => t.kind == .endOfInput),
        ts[ts.findIdx fun t => t.kind == .endOfInput]?.getD ⟨.endOfInput, "", last.position⟩⟩ := by
  unfold Tokens.ofList?
  rw [List.find?_eq_getElem?_findIdx, List.takeWhile_eq_take_findIdx_not]
  simp only [bne, Bool.not_not]

/-- With its last token, a row goes on where its tokens before that do. -/
theorem getElem?_tokens (row : Row) (t : Token) :
    (row.front ++ [row.last])[row.endPlace]?.getD t = row.stop := by
  unfold stop token
  rcases Nat.lt_or_eq_of_le row.endPlace_le with hlt | heq
  · rw [List.getElem?_append_left hlt, List.getElem?_eq_getElem hlt]
    rfl
  · rw [heq, List.getElem?_concat_length, List.getElem?_eq_none (Nat.le_refl _)]
    rfl

/-- The first end is found at its place, the last token being one. -/
theorem findIdx_tokens (row : Row) (h : row.last.kind = .endOfInput) :
    ((row.front ++ [row.last]).findIdx fun t => t.kind == .endOfInput) = row.endPlace := by
  have hle := row.endPlace_le
  rw [List.findIdx_append]
  split
  · rfl
  · simp only [List.findIdx_singleton, h, beq_self_eq_true, if_true]
    unfold endPlace at hle ⊢
    omega

/-- A row has the tokens that the rules read before its first end of the input. -/
theorem tokens_of_ofList? (h : Row.ofList? ts = some row) :
    row.last.kind = .endOfInput ∧ Tokens.ofList? ts = some ⟨row.inner, row.stop⟩ ∧
      row.endPlace = ts.findIdx fun t => t.kind == .endOfInput := by
  obtain ⟨last, hts, hrow⟩ := Option.map_eq_some_iff.mp h
  rw [ofList?_eq, hts, Option.map_some]
  split at hrow
  next hlast =>
      obtain ⟨front, rfl⟩ := List.getLast?_eq_some_iff.mp hts
      rw [List.dropLast_concat] at hrow
      subst hrow
      have hplace := findIdx_tokens ⟨front, last⟩ hlast
      refine ⟨hlast, ?_, hplace.symm⟩
      dsimp only at hplace
      rw [hplace, getElem?_tokens ⟨front, last⟩,
        List.take_append_of_le_length (endPlace_le ⟨front, last⟩)]
      rfl
  next hlast =>
      subst hrow
      exact ⟨rfl, rfl, rfl⟩

end Row

/-! ### What a walk does -/

/-- The place that a step leaves. -/
def Move.step? : Move → Option Nat
  | .step place => some place
  | _ => none

/-- A round that is gone on with has moved the cursor, and one over models has in any case.  Nothing
is dropped. -/
def Move.IsForward : Move → Prop
  | .step _ => True
  | .round l start stop again => again = true ∨ l = .models → start < stop
  | .drop _ => False

namespace Cursor

/-- The cursor stands where these tokens are left before the end of the input. -/
structure At (row : Row) (ts : List Token) (c : Cursor) : Prop where
  place_le : c.place ≤ row.endPlace
  left : row.inner.drop c.place = ts

/-- The cursor has been moved on to where `rest` is left, by one step from each place between, and
`noted` was noted on the way. -/
structure Reaches (row : Row) (c : Cursor) (noted : List SyntaxFault) (rest : List Token)
    (c' : Cursor) : Prop where
  at_ : c'.At row rest
  le : c.place ≤ c'.place
  faults : c'.faults = c.faults ++ noted
  moves : ∃ ms, c'.moves = c.moves ++ ms ∧
    ms.filterMap Move.step? = List.range' c.place (c'.place - c.place) ∧ ∀ m ∈ ms, m.IsForward

variable {row : Row} {ts us : List Token} {es es' : List SyntaxFault} {c c' c'' : Cursor}

theorem At.length_eq (h : c.At row ts) : ts.length = row.endPlace - c.place := by
  rw [← h.left, List.length_drop, Row.length_inner]

/-- A cursor reaches the place where it stands. -/
theorem At.reaches (h : c.At row ts) : c.Reaches row [] ts c where
  at_ := h
  le := Nat.le_refl _
  faults := (List.append_nil _).symm
  moves := ⟨[], (List.append_nil _).symm, by simp, fun _ hm => absurd hm List.not_mem_nil⟩

/-- What is reached from what was reached is reached, with both their notes. -/
theorem Reaches.trans (h : c.Reaches row es us c') (h' : c'.Reaches row es' ts c'') :
    c.Reaches row (es ++ es') ts c'' where
  at_ := h'.at_
  le := Nat.le_trans h.le h'.le
  faults := by rw [h'.faults, h.faults, List.append_assoc]
  moves := by
    obtain ⟨ms, hms, hsteps, hforward⟩ := h.moves
    obtain ⟨ms', hms', hsteps', hforward'⟩ := h'.moves
    refine ⟨ms ++ ms', by rw [hms', hms, List.append_assoc], ?_,
      List.forall_mem_append.mpr ⟨hforward, hforward'⟩⟩
    have hle := h.le
    have hle' := h'.le
    rw [List.filterMap_append, hsteps, hsteps',
      show c''.place - c.place = (c'.place - c.place) + (c''.place - c'.place) by omega,
      ← List.range'_append_1, show c.place + (c'.place - c.place) = c'.place by omega]

/-- Fewer tokens are left exactly if the cursor has been moved. -/
theorem Reaches.lt_iff (h : c.At row ts) (h' : c.Reaches row es us c') :
    us.length < ts.length ↔ c.place < c'.place := by
  have := h.length_eq
  have := h'.at_.length_eq
  have := h.place_le
  have := h'.at_.place_le
  omega

/-- A move that is no step leaves the cursor where it is. -/
theorem Reaches.moving (h : c.Reaches row es ts c') {m : Move} (hm : m.IsForward)
    (hstep : m.step? = none) : c.Reaches row es ts (c'.moving m) where
  at_ := ⟨h.at_.place_le, h.at_.left⟩
  le := h.le
  faults := h.faults
  moves := by
    obtain ⟨ms, hms, hsteps, hforward⟩ := h.moves
    refine ⟨ms ++ [m], ?_, ?_, ?_⟩
    · show c'.moves ++ [m] = _
      rw [hms, List.append_assoc]
    · rw [List.filterMap_append, hsteps]
      simp [hstep]
    · exact List.forall_mem_append.mpr ⟨hforward, List.forall_mem_singleton.mpr hm⟩

theorem At.noting (h : c.At row ts) (f : SyntaxFault) : c.Reaches row [f] ts (c.noting f) where
  at_ := ⟨h.place_le, h.left⟩
  le := Nat.le_refl _
  faults := rfl
  moves := ⟨[], (List.append_nil _).symm, by simp, fun _ hm => absurd hm List.not_mem_nil⟩

end Cursor

/-- The token that comes next is the first of those that are left, or the end. -/
def Row.next (row : Row) (ts : List Token) : Token := ts.head?.getD row.stop

@[simp] theorem Row.next_nil (row : Row) : row.next [] = row.stop := rfl

@[simp] theorem Row.next_cons (row : Row) (t : Token) (ts : List Token) : row.next (t :: ts) = t :=
  rfl

/-- The token at the cursor is the first of those that are left. -/
theorem Cursor.At.token_eq {row : Row} {ts : List Token} {c : Cursor} (h : c.At row ts) :
    row.token c.place = row.next ts := by
  cases ts with
  | nil =>
      have := h.length_eq
      have := h.place_le
      rw [show c.place = row.endPlace by simp_all; omega]
      rfl
  | cons t ts => exact (Row.token_of_drop h.left).1

/-- One step takes the first of the tokens that are left. -/
theorem Cursor.At.advance {row : Row} {t : Token} {ts : List Token} {c : Cursor}
    (h : c.At row (t :: ts)) :
    ∃ c', Walk.advance row c = Part.some (.ok t, c') ∧ c.Reaches row [] ts c' ∧
      c'.place = c.place + 1 := by
  obtain ⟨htoken, hlt, -⟩ := Row.token_of_drop h.left
  have hlength := h.length_eq
  rw [List.length_cons] at hlength
  refine ⟨⟨c.place + 1, c.faults, c.moves ++ [Move.step c.place]⟩, ?_, ⟨⟨?_, ?_⟩, ?_, ?_, ?_⟩, rfl⟩
  · unfold Walk.advance
    rw [htoken, if_pos (Nat.lt_succ_of_lt hlt)]
  · show c.place + 1 ≤ row.endPlace
    omega
  · show row.inner.drop (c.place + 1) = ts
    rw [← List.drop_drop, h.left]
    rfl
  · exact Nat.le_succ c.place
  · exact (List.append_nil _).symm
  · refine ⟨_, rfl, ?_, List.forall_mem_singleton.mpr trivial⟩
    rw [show (⟨c.place + 1, c.faults, c.moves ++ [.step c.place]⟩ : Cursor).place - c.place = 1 from
      Nat.add_sub_cancel_left c.place 1]
    rfl

/-! ### Walks that follow rules -/

open Reading

/-- A walk from the cursor ends as the reading does, where the same tokens are left and with the
same faults noted.  When a number is none, it is at least one token further. -/
def Reading.Noted.IsWalked {α : Type} (n : Noted α) (row : Row) (c : Cursor)
    (answer : Part (Except Halt α × Cursor)) : Prop :=
  match n.reading with
  | .read a rest => ∃ c', answer = Part.some (.ok a, c') ∧ c.Reaches row n.faults rest c'
  | .fault e rest => ∃ c', answer = Part.some (.error (.fault e), c') ∧
      c.Reaches row n.faults rest c'
  | .broken e => ∃ c' es rest, answer = Part.some (.error (.broken e), c') ∧
      c.Reaches row es rest c' ∧ c.place < c'.place

/-- The same reading, with faults that were noted earlier. -/
def Reading.Noted.behind {α : Type} (es : List SyntaxFault) (n : Noted α) : Noted α :=
  { n with faults := es ++ n.faults }

/-- First one reading and then, if it reads a value, another one. -/
def Reading.Noted.bind {α β : Type} (n : Noted α) (g : α → List Token → Noted β) : Noted β :=
  match n.reading with
  | .read a rest => (g a rest).behind n.faults
  | .fault e rest => ⟨n.faults, .fault e rest⟩
  | .broken e => ⟨n.faults, .broken e⟩

/-- What is read after a fault, where the reading ends in one. -/
def Reading.Noted.recover {α : Type} (n : Noted α) (g : SyntaxFault → List Token → Noted α) :
    Noted α :=
  match n.reading with
  | .fault e rest => (g e rest).behind n.faults
  | _ => n

/-- A rule as a reading that notes nothing. -/
def Rule.noted {α : Type} (r : Rule α) (row : Row) (ts : List Token) : Noted α :=
  ⟨[], r row.stop ts⟩

/-- What was noted before a walk is noted before what it notes. -/
theorem Reading.Noted.IsWalked.behind {α : Type} {n : Noted α} {row : Row} {c c' : Cursor}
    {es : List SyntaxFault} {ts : List Token} {answer : Part (Except Halt α × Cursor)}
    (h : n.IsWalked row c' answer) (hc : c.Reaches row es ts c') :
    (n.behind es).IsWalked row c answer := by
  obtain ⟨faults, reading⟩ := n
  cases reading with
  | read a rest =>
      obtain ⟨c'', hanswer, hreaches⟩ := h
      exact ⟨c'', hanswer, hc.trans hreaches⟩
  | fault e rest =>
      obtain ⟨c'', hanswer, hreaches⟩ := h
      exact ⟨c'', hanswer, hc.trans hreaches⟩
  | broken e =>
      obtain ⟨c'', es', rest, hanswer, hreaches, hlt⟩ := h
      exact ⟨c'', es ++ es', rest, hanswer, hc.trans hreaches, Nat.lt_of_le_of_lt hc.le hlt⟩

instance : LawfulMonad Rule :=
  LawfulMonad.mk' _
    (fun r => by
      funext stop ts
      show Rule.bind r (fun a => pure a) stop ts = r stop ts
      unfold Rule.bind
      cases r stop ts <;> rfl)
    (fun _ _ => rfl)
    (fun r f g => by
      funext stop ts
      show Rule.bind (Rule.bind r f) g stop ts = Rule.bind r (fun a => Rule.bind (f a) g) stop ts
      unfold Rule.bind
      cases r stop ts <;> rfl)

/-- A sequence notes what its rules note, one after the other. -/
theorem Rule.noted_bind {α β : Type} (r : Rule α) (g : α → Rule β) (row : Row) (ts : List Token) :
    (r >>= g).noted row ts = (r.noted row ts).bind fun a rest => (g a).noted row rest := by
  show (⟨[], Rule.bind r g row.stop ts⟩ : Noted β) = _
  unfold Rule.bind Rule.noted Reading.Noted.bind
  cases r row.stop ts <;> rfl

namespace Walk

variable {α β σ : Type} {row : Row} {t : Token} {ts rest : List Token} {es : List SyntaxFault}
  {x : Walk α} {f : α → Walk β} {n : Noted α} {r : Rule α} {g : α → Rule β}

theorem bind_of_ok {row : Row} {c c' : Cursor} {a : α} (h : x row c = Part.some (.ok a, c')) :
    (x >>= f) row c = f a row c' := by
  show Walk.bind x f row c = _
  unfold Walk.bind
  rw [h, Part.bind_some]

theorem bind_of_error {row : Row} {c c' : Cursor} {e : Halt}
    (h : x row c = Part.some (.error e, c')) : (x >>= f) row c = Part.some (.error e, c') := by
  show Walk.bind x f row c = _
  unfold Walk.bind
  rw [h, Part.bind_some]

/-- To return what was found does nothing more. -/
theorem bind_pure_eq (x : Walk α) : (x >>= pure) = x := by
  funext row c
  show Walk.bind x pure row c = x row c
  unfold Walk.bind
  refine Eq.trans (congrArg (x row c).bind (funext fun answer => ?_)) (Part.bind_some_right _)
  obtain ⟨_ | _, _⟩ := answer <;> rfl

/-- Wherever these tokens are left, the walk ends as the reading does. -/
def Follows (row : Row) (ts : List Token) (x : Walk α) (n : Noted α) : Prop :=
  ∀ c, c.At row ts → n.IsWalked row c (x row c)

theorem follows_pure (a : α) : Follows row ts (pure a) ((pure a : Rule α).noted row ts) :=
  fun c hc => ⟨c, rfl, hc.reaches⟩

theorem follows_fail (problem : SyntaxProblem) (t : Token) :
    Follows row ts (fail problem t : Walk α) ((Rule.fail problem t : Rule α).noted row ts) :=
  fun c hc => ⟨c, rfl, hc.reaches⟩

/-- A walk in two parts follows a reading in two parts. -/
theorem Follows.bind {g : α → List Token → Noted β} (hx : Follows row ts x n)
    (hf : ∀ a rest, n.reading = .read a rest → Follows row rest (f a) (g a rest)) :
    Follows row ts (x >>= f) (n.bind g) := by
  intro c hc
  have hwalk := hx c hc
  obtain ⟨faults, reading⟩ := n
  cases reading with
  | read a rest =>
      obtain ⟨c', hanswer, hreaches⟩ := hwalk
      rw [bind_of_ok hanswer]
      exact (hf a rest rfl c' hreaches.at_).behind hreaches
  | fault e rest =>
      obtain ⟨c', hanswer, hreaches⟩ := hwalk
      exact ⟨c', bind_of_error hanswer, hreaches⟩
  | broken e =>
      obtain ⟨c', es, rest, hanswer, hreaches⟩ := hwalk
      exact ⟨c', es, rest, bind_of_error hanswer, hreaches⟩

/-- After a fault the walk goes on as the reading does. -/
theorem Follows.recover {h : SyntaxFault → Walk α} {g : SyntaxFault → List Token → Noted α}
    (hx : Follows row ts x n)
    (hh : ∀ e rest, n.reading = .fault e rest → Follows row rest (h e) (g e rest)) :
    Follows row ts (recover x h) (n.recover g) := by
  intro c hc
  have hwalk := hx c hc
  obtain ⟨faults, reading⟩ := n
  unfold Walk.recover
  cases reading with
  | read a rest =>
      obtain ⟨c', hanswer, hreaches⟩ := hwalk
      rw [hanswer, Part.bind_some]
      exact ⟨c', rfl, hreaches⟩
  | fault e rest =>
      obtain ⟨c', hanswer, hreaches⟩ := hwalk
      rw [hanswer, Part.bind_some]
      exact (hh e rest rfl c' hreaches.at_).behind hreaches
  | broken e =>
      obtain ⟨c', es, rest, hanswer, hreaches⟩ := hwalk
      rw [hanswer, Part.bind_some]
      exact ⟨c', es, rest, rfl, hreaches⟩

/-- A walk that follows a rule, whatever tokens are left. -/
def Obeys (row : Row) (x : Walk α) (r : Rule α) : Prop := ∀ ts, Follows row ts x (r.noted row ts)

theorem follows_bind {us : List Token} (hx : Follows row us x (r.noted row ts))
    (hf : ∀ a, Obeys row (f a) (g a)) : Follows row us (x >>= f) ((r >>= g).noted row ts) := by
  rw [Rule.noted_bind]
  exact hx.bind fun a rest _ => hf a rest

theorem obeys_bind (hx : Obeys row x r) (hf : ∀ a, Obeys row (f a) (g a)) :
    Obeys row (x >>= f) (r >>= g) := fun ts => follows_bind (hx ts) hf

theorem obeys_pure (a : α) : Obeys row (pure a) (pure a) := fun _ => follows_pure a

theorem obeys_fail (problem : SyntaxProblem) (t : Token) :
    Obeys row (fail problem t : Walk α) (Rule.fail problem t) := fun _ => follows_fail problem t

/-- Both branches have to follow, each where it is taken. -/
theorem follows_ite {p : Prop} [Decidable p] {y : Walk α} {q : Rule α}
    (hx : p → Follows row ts x (r.noted row ts)) (hy : ¬ p → Follows row ts y (q.noted row ts)) :
    Follows row ts (if p then x else y) ((if p then r else q : Rule α).noted row ts) := by
  split
  next h => exact hx h
  next h => exact hy h

theorem obeys_ite {p : Prop} [Decidable p] {y : Walk α} {q : Rule α} (hx : Obeys row x r)
    (hy : Obeys row y q) : Obeys row (if p then x else y) (if p then r else q) := by
  split <;> assumption

/-- To look at the next token follows whatever goes on from it. -/
theorem follows_next_bind {f : Token → Walk β} {n : Noted β}
    (h : Follows row ts (f (row.next ts)) n) : Follows row ts (next >>= f) n := by
  intro c hc
  have hnext : next row c = Part.some (.ok (row.next ts), c) := by
    rw [← hc.token_eq]
    rfl
  rw [bind_of_ok hnext]
  exact h c hc

theorem obeys_peek_bind {f : Token → Walk β} {g : Token → Rule β}
    (h : ∀ ts, Follows row ts (f (row.next ts)) ((g (row.next ts)).noted row ts)) :
    Obeys row (next >>= f) (Rule.peek >>= g) := fun ts => follows_next_bind (h ts)

/-- To look one token further follows whatever goes on from it. -/
theorem follows_lookAt_bind {f : Token → Walk β} {n : Noted β}
    (h : Follows row (t :: ts) (f (row.next ts)) n) :
    Follows row (t :: ts) (lookAt 1 >>= f) n := by
  intro c hc
  obtain ⟨c', -, hreaches, hplace⟩ := hc.advance
  have hnext : lookAt 1 row c = Part.some (.ok (row.next ts), c) := by
    rw [← hreaches.at_.token_eq, hplace]
    rfl
  rw [bind_of_ok hnext]
  exact h c hc

/-- The tokens that are left do not have the end of the input among them. -/
theorem follows_cons (h : t.kind ≠ .endOfInput → Follows row (t :: ts) x n) :
    Follows row (t :: ts) x n := fun c hc => h (Row.token_of_drop hc.left).2.2 c hc

/-- Where the next token does not pass the test, it is a fault at its place. -/
theorem expectWhere_bind_of_not {test : TokenKind → Bool} (problem : SyntaxProblem)
    (g : Token → Rule β) (h : test (row.next ts).kind = false) :
    (Rule.expectWhere test problem >>= g) row.stop ts =
      .fault ⟨problem, (row.next ts).position⟩ ts := by
  unfold Rule.expectWhere
  rw [bind_assoc]
  show ((if test (row.next ts).kind = true then _ else _ : Rule Token) >>= g) row.stop ts = _
  rw [h]
  rfl

/-- A note is put before what is noted later. -/
theorem follows_note_bind {f : Unit → Walk β} {n : Noted β} {e : SyntaxFault}
    (h : Follows row ts (f ()) n) : Follows row ts (note e >>= f) (n.behind [e]) := by
  intro c hc
  have hnote : note e row c = Part.some (.ok (), c.noting e) := rfl
  rw [bind_of_ok hnote]
  exact (h _ (hc.noting e).at_).behind (hc.noting e)

/-- To advance takes the first token that is left. -/
theorem follows_advance_bind {f : Token → Walk β} {n : Noted β} (h : Follows row ts (f t) n) :
    Follows row (t :: ts) (advance >>= f) n := by
  intro c hc
  obtain ⟨c', hadvance, hreaches, -⟩ := hc.advance
  rw [bind_of_ok hadvance]
  exact (h c' hreaches.at_).behind hreaches

/-- A token that writes a number is taken first. -/
theorem follows_ofNumeral_bind {r : Except NumeralFault α} (hf : ∀ a, Obeys row (f a) (g a)) :
    Follows row (t :: ts) (advance >>= fun _ => ofNumeral r >>= f)
      ((Rule.ofNumeral r >>= g).noted row ts) := by
  cases r with
  | ok a =>
      refine follows_advance_bind fun c hc => ?_
      have hnumber : ofNumeral (.ok a) row c = Part.some (.ok a, c) := rfl
      rw [bind_of_ok hnumber]
      exact hf a ts c hc
  | error e =>
      intro c hc
      obtain ⟨c', hadvance, hreaches, hplace⟩ := hc.advance
      have hbroken : (ofNumeral (.error e) : Walk α) row c' = Part.some (.error (.broken e), c') :=
        rfl
      rw [bind_of_ok hadvance, bind_of_error hbroken]
      exact ⟨c', [], ts, rfl, hreaches, hplace ▸ Nat.lt_succ_self _⟩

/-! A loop is gone through once, and then the walk goes on with it or behind it. -/

section

variable {l : Loop} {test : TokenKind → Bool} {round : σ → Walk (ForInStep σ)} {s s' : σ}
  {k : σ → Walk β} {c c' : Cursor}

/-- A loop ends where its test fails. -/
theorem loop_of_end (htest : test (row.token c.place).kind = false) :
    loop l test round s row c = Part.some (.ok s, c) := by
  refine Part.eq_some_iff.mpr (PFun.fix_stop ?_)
  unfold loopStep
  rw [if_neg (by simp [htest])]
  exact Part.mem_some _

/-- After a round that yields, the loop goes on from there. -/
theorem loop_of_yield (htest : test (row.token c.place).kind = true)
    (hround : round s row c = Part.some (.ok (.yield s'), c')) :
    loop l test round s row c =
      loop l test round s' row (c'.moving (.round l c.place c'.place true)) := by
  refine PFun.fix_fwd_eq ?_
  unfold loopStep
  rw [if_pos htest, hround, Part.map_some]
  exact Part.mem_some _

/-- After a round that is done, so is the loop. -/
theorem loop_of_done (htest : test (row.token c.place).kind = true)
    (hround : round s row c = Part.some (.ok (.done s'), c')) :
    loop l test round s row c =
      Part.some (.ok s', c'.moving (.round l c.place c'.place false)) := by
  refine Part.eq_some_iff.mpr (PFun.fix_stop ?_)
  unfold loopStep
  rw [if_pos htest, hround, Part.map_some]
  exact Part.mem_some _

/-- An error in a round ends the loop. -/
theorem loop_of_error {e : Halt} (htest : test (row.token c.place).kind = true)
    (hround : round s row c = Part.some (.error e, c')) :
    loop l test round s row c =
      Part.some (.error e, c'.moving (.round l c.place c'.place false)) := by
  refine Part.eq_some_iff.mpr (PFun.fix_stop ?_)
  unfold loopStep
  rw [if_pos htest, hround, Part.map_some]
  exact Part.mem_some _

/-- A loop whose test fails follows what comes after it. -/
theorem follows_loop_end {n : Noted β} (htest : test (row.next ts).kind = false)
    (hk : Follows row ts (k s) n) : Follows row ts (loop l test round s >>= k) n := by
  intro c hc
  rw [bind_of_ok (loop_of_end (hc.token_eq ▸ htest))]
  exact hk c hc

/-- A round that is gone on with must leave fewer tokens. -/
theorem follows_loop_yield {n : Noted β} (htest : test (row.next ts).kind = true)
    (hround : Follows row ts (round s) ⟨es, .read (.yield s') rest⟩)
    (hfewer : rest.length < ts.length)
    (hk : Follows row rest (loop l test round s' >>= k) n) :
    Follows row ts (loop l test round s >>= k) (n.behind es) := by
  intro c hc
  obtain ⟨c', hanswer, hreaches⟩ := hround c hc
  have hlt : c.place < c'.place := (hreaches.lt_iff hc).mp hfewer
  have hmoved := hreaches.moving (m := .round l c.place c'.place true) (fun _ => hlt) rfl
  have hgo : (loop l test round s >>= k) row c =
      (loop l test round s' >>= k) row (c'.moving (.round l c.place c'.place true)) := by
    show Walk.bind _ k row c = Walk.bind _ k row _
    unfold Walk.bind
    rw [loop_of_yield (hc.token_eq ▸ htest) hanswer]
  rw [hgo]
  exact (hk _ hmoved.at_).behind hmoved

/-- A loop whose round yields and takes a token follows what the rest of it follows. -/
theorem follows_loop_next {n : Noted β} (htest : test (row.next ts).kind = true)
    (hround : Follows row ts (round s) ⟨[], .read (.yield s') rest⟩)
    (hfewer : rest.length < ts.length)
    (hk : Follows row rest (loop l test round s' >>= k) n) :
    Follows row ts (loop l test round s >>= k) n := follows_loop_yield htest hround hfewer hk

/-- Any loop but that over models may be left. -/
theorem follows_loop_done {n : Noted β} (hl : l ≠ .models) (htest : test (row.next ts).kind = true)
    (hround : Follows row ts (round s) ⟨[], .read (.done s') rest⟩)
    (hk : Follows row rest (k s') n) :
    Follows row ts (loop l test round s >>= k) n := by
  intro c hc
  obtain ⟨c', hanswer, hreaches⟩ := hround c hc
  have hmoved := hreaches.moving (m := .round l c.place c'.place false)
    (fun h => absurd (h.resolve_left Bool.false_ne_true) hl) rfl
  rw [bind_of_ok (loop_of_done (hc.token_eq ▸ htest) hanswer)]
  exact (hk _ hmoved.at_).behind hmoved

/-- A loop ends with the fault that its round ends with. -/
theorem follows_loop_fault {e : SyntaxFault} (hl : l ≠ .models)
    (htest : test (row.next ts).kind = true)
    (hround : Follows row ts (round s) ⟨es, .fault e rest⟩) :
    Follows row ts (loop l test round s >>= k) ⟨es, .fault e rest⟩ := by
  intro c hc
  obtain ⟨c', hanswer, hreaches⟩ := hround c hc
  exact ⟨_, bind_of_error (loop_of_error (hc.token_eq ▸ htest) hanswer),
    hreaches.moving (fun h => absurd (h.resolve_left Bool.false_ne_true) hl) rfl⟩

/-- A number that is none has been taken, so that the cursor has been moved. -/
theorem follows_loop_broken {e : NumeralFault} (htest : test (row.next ts).kind = true)
    (hround : Follows row ts (round s) ⟨es, .broken e⟩) :
    Follows row ts (loop l test round s >>= k) ⟨es, .broken e⟩ := by
  intro c hc
  obtain ⟨c', es', rest, hanswer, hreaches, hlt⟩ := hround c hc
  exact ⟨_, es', rest, bind_of_error (loop_of_error (hc.token_eq ▸ htest) hanswer),
    hreaches.moving (fun _ => hlt) rfl, hlt⟩

/-- The same for rounds and loops that follow rules.  A round may be read off the tokens behind its
first one, which it has taken already. -/
theorem follows_loop_rule {us : List Token} {q : Rule (ForInStep σ)} {next : ForInStep σ → Rule β}
    (hl : l ≠ .models) (htest : test (row.next ts).kind = true)
    (hround : Follows row ts (round s) (q.noted row us))
    (hfewer : ∀ s' rest, q row.stop us = .read (.yield s') rest → rest.length < ts.length)
    (hyield : ∀ s' rest, rest.length < ts.length →
      Follows row rest (loop l test round s' >>= k) ((next (.yield s')).noted row rest))
    (hdone : ∀ s', Obeys row (k s') (next (.done s'))) :
    Follows row ts (loop l test round s >>= k) ((q >>= next).noted row us) := by
  rw [Rule.noted_bind]
  unfold Rule.noted Reading.Noted.bind at *
  cases hread : q row.stop us with
  | read a rest =>
      rw [hread] at hround
      cases a with
      | yield s' =>
          have hlt := hfewer s' rest hread
          exact follows_loop_next htest hround hlt (hyield s' rest hlt)
      | done s' => exact follows_loop_done hl htest hround (hdone s' rest)
  | fault e rest =>
      rw [hread] at hround
      exact follows_loop_fault hl htest hround
  | broken e =>
      rw [hread] at hround
      exact follows_loop_broken htest hround

end

section

variable (hend : row.last.kind = .endOfInput)

include hend

/-- What is not the end of the input can be taken. -/
theorem follows_skip_bind {f : Token → Walk β} {g : Unit → Rule β}
    (hne : (row.next ts).kind ≠ .endOfInput)
    (h : Follows row ts.tail (f (row.next ts)) ((g ()).noted row ts.tail)) :
    Follows row ts (advance >>= f) ((Rule.skip >>= g).noted row ts) := by
  cases ts with
  | nil => exact absurd (Row.kind_stop hend) hne
  | cons t ts => exact follows_advance_bind h

/-- To expect a token obeys the rule that does, unless the end passes for it. -/
theorem obeys_expectWhere {test : TokenKind → Bool} (problem : SyntaxProblem)
    (htest : test .endOfInput = false) :
    Obeys row (expectWhere test problem) (Rule.expectWhere test problem) := by
  refine obeys_peek_bind fun ts => ?_
  cases ts with
  | nil =>
      rw [show (row.next []).kind = .endOfInput from Row.kind_stop hend, htest]
      exact follows_fail _ _
  | cons t ts =>
      refine follows_ite (fun _ => ?_) fun _ => follows_fail _ _
      intro c hc
      obtain ⟨c', hadvance, hreaches, -⟩ := hc.advance
      exact ⟨c', hadvance, hreaches⟩

theorem obeys_expect {kind : TokenKind} (problem : SyntaxProblem) (hkind : kind ≠ .endOfInput) :
    Obeys row (expect kind problem) (Rule.expect kind problem) :=
  obeys_expectWhere hend problem (beq_eq_false_iff_ne.mpr hkind.symm)

theorem obeys_expectName (problem : SyntaxProblem) :
    Obeys row (expectName problem) (Rule.expectName problem) :=
  obeys_expectWhere hend problem rfl

end

end Walk

end Schemata
