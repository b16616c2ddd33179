import Mathlib.Data.Prod.Lex
import Schemata.Proofs.Token.Spans

/-!
# Proofs — tokens — order

Places are ordered as their characters stand in a text (`Position.lt_iff_before`), and going through
a text leads forwards (`Position.le_after`).  The tokens of a source stand in a row: each is over
where the next one begins, or before (`Token.InOrder`).

* `Token.inOrder_scan` — so it is, and a place inside a token is one of the source.
-/

namespace Schemata

/-! ### Places -/

namespace Position

instance : LinearOrder Position :=
  LinearOrder.lift' (fun p : Position => toLex (p.line, p.column)) fun p q h => by
    obtain ⟨hline, hcolumn⟩ := Prod.ext_iff.mp (toLex.injective h)
    cases p
    cases q
    cases hline
    cases hcolumn
    rfl

theorem lt_iff_before {p q : Position} : p < q ↔ p.Before q := Prod.Lex.toLex_lt_toLex

/-- A character leads to a later place. -/
theorem lt_advance (p : Position) (c : Char) : p < p.advance c := by
  rw [lt_iff_before]
  unfold Before advance
  split
  · exact .inl (Int.lt_succ _)
  · exact .inr ⟨rfl, Int.lt_succ _⟩

theorem le_iff {p q : Position} :
    p ≤ q ↔ p.line < q.line ∨ p.line = q.line ∧ p.column ≤ q.column := Prod.Lex.toLex_le_toLex

/-- A character leads later from a later place. -/
theorem advance_le {p q : Position} (h : p ≤ q) (c : Char) : p.advance c ≤ q.advance c := by
  rw [le_iff] at h ⊢
  unfold advance
  split <;> dsimp only <;> omega

/-- A text leads to no earlier place. -/
theorem le_after (p : Position) (cs : List Char) : p ≤ p.after cs := by
  induction cs generalizing p with
  | nil => exact le_refl p
  | cons c cs ih => exact (lt_advance p c).le.trans (ih _)

theorem after_le {p q : Position} (h : p ≤ q) (cs : List Char) : p.after cs ≤ q.after cs := by
  induction cs generalizing p q with
  | nil => exact h
  | cons c cs ih => exact ih (advance_le h c)

/-- Part of a text leads no further than all of it. -/
theorem after_take_le (p : Position) (cs : List Char) (n : Nat) :
    p.after (cs.take n) ≤ p.after cs := by
  conv => rhs; rw [← List.take_append_drop n cs, after_append]
  exact le_after _ _

/-- The place of an offset is reached by going through the text up to it. -/
theorem ofOffset_eq_after (cs : List Char) (n : Nat) : ofOffset cs n = start.after (cs.take n) := by
  rw [after_start]
  unfold ofOffset
  rw [List.take_length]

/-- Later offsets have later places. -/
theorem ofOffset_le {cs : List Char} {m n : Nat} (h : m ≤ n) : ofOffset cs m ≤ ofOffset cs n := by
  have htake : (cs.take n).take m = cs.take m := by rw [List.take_take, Nat.min_eq_left h]
  rw [ofOffset_eq_after, ofOffset_eq_after, ← htake]
  exact after_take_le _ _ _

/-- No place of a text is that of two offsets. -/
theorem eq_of_ofOffset_eq {cs : List Char} {m n : Nat} (hm : m ≤ cs.length) (hn : n ≤ cs.length)
    (h : ofOffset cs m = ofOffset cs n) : m = n := by
  rcases Nat.lt_trichotomy m n with hlt | heq | hlt
  · exact absurd h (lt_iff_before.mpr (before_ofOffset hlt hn)).ne
  · exact heq
  · exact absurd h (lt_iff_before.mpr (before_ofOffset hlt hm)).ne'

/-- From the place of one offset to that of a later one leads the text between them. -/
theorem after_ofOffset {cs : List Char} {m n : Nat} (h : m ≤ n) :
    (ofOffset cs m).after ((cs.take n).drop m) = ofOffset cs n := by
  have htake : cs.take m ++ (cs.take n).drop m = cs.take n := by
    conv => rhs; rw [← List.take_append_drop m (cs.take n), List.take_take, Nat.min_eq_left h]
  rw [ofOffset_eq_after, ofOffset_eq_after, ← after_append, htake]

end Position

/-! ### Tokens -/

namespace Token

variable {t u stop : Token} {p : Position} {ts us : List Token}

/-- The token stands before the other one, and its text is over where that begins, or before. -/
structure Precedes (t u : Token) : Prop where
  begins : t.position < u.position
  ends : t.position.after t.text.toList ≤ u.position

/-- The place is that of the token or, in a raw block, one inside it or at its end. -/
def Holds (t : Token) (p : Position) : Prop :=
  p = t.position ∨ t.kind = .rawObject ∧
    ∃ n ≤ t.text.toList.length, p = t.position.after (t.text.toList.take n)

theorem holds_self (t : Token) : t.Holds t.position := .inl rfl

/-- What a token holds is not before it. -/
theorem Holds.le (h : t.Holds p) : t.position ≤ p := by
  rcases h with rfl | ⟨-, n, -, rfl⟩
  · exact le_refl _
  · exact Position.le_after _ _

/-- What a token holds is not behind what it precedes. -/
theorem Holds.le_of_precedes (h : t.Holds p) (hu : t.Precedes u) : p ≤ u.position := by
  rcases h with rfl | ⟨-, n, -, rfl⟩
  · exact hu.begins.le
  · exact (Position.after_take_le _ _ _).trans hu.ends

/-- The tokens stand in a row, and the end of the input after them. -/
structure InOrder (stop : Token) (ts : List Token) : Prop where
  stopped : stop.kind = .endOfInput
  pairwise : (ts ++ [stop]).Pairwise Precedes

/-- What is left of tokens in order is in order. -/
theorem InOrder.of_suffix (h : InOrder stop ts) (hus : us <:+ ts) : InOrder stop us := by
  obtain ⟨vs, rfl⟩ := hus
  refine ⟨h.stopped, h.pairwise.sublist ?_⟩
  rw [List.append_assoc]
  exact List.sublist_append_right _ _

theorem InOrder.tail (h : InOrder stop (t :: ts)) : InOrder stop ts :=
  h.of_suffix (List.suffix_cons t ts)

theorem InOrder.precedes (h : InOrder stop (t :: ts)) (hu : u ∈ ts ++ [stop]) : t.Precedes u :=
  (List.pairwise_cons.mp h.pairwise).1 u hu

end Token

namespace Span

/-- A token of a span takes up no more than the span. -/
theorem after_le_of_isOf {s : Span} {cs : List Char} (h : s.IsOf cs) {t : Token}
    (ht : t ∈ s.token?) :
    t.position = .ofOffset cs s.first ∧
      t.position.after t.text.toList ≤ .ofOffset cs s.stop := by
  have hposition : t.position = .ofOffset cs s.first := by
    rw [← h.placed]
    unfold token? at ht
    unfold position
    cases hfound : s.found with
    | ok t' =>
        rw [hfound] at ht
        cases ht
        rfl
    | error e =>
        rw [hfound] at ht
        cases ht
  refine ⟨hposition, ?_⟩
  obtain ⟨-, -, hspells⟩ := h.spelled t ht
  rw [← Position.after_ofOffset h.nonempty.le, hposition]
  unfold TokenKind.Spells at hspells
  split at hspells
  next =>
      -- the quotes are no part of the text
      obtain ⟨quote, -, hslice⟩ := hspells
      rw [hslice, List.cons_append, Position.after_cons, Position.after_append]
      exact (Position.after_le (Position.lt_advance _ quote).le _).trans (Position.le_after _ _)
  next =>
      rw [hspells]

/-- A place inside a token is one of its span. -/
theorem exists_ofOffset_of_holds {s : Span} {cs : List Char} (h : s.IsOf cs) {t : Token}
    (ht : t ∈ s.token?) {p : Position} (hp : t.Holds p) :
    ∃ n ≤ cs.length, p = .ofOffset cs n := by
  obtain ⟨hposition, -⟩ := after_le_of_isOf h ht
  have hbounded := h.bounded
  have hnonempty := h.nonempty
  rcases hp with rfl | ⟨hkind, n, hn, rfl⟩
  · exact ⟨s.first, by omega, hposition⟩
  · obtain ⟨-, -, hspells⟩ := h.spelled t ht
    unfold TokenKind.Spells at hspells
    rw [if_neg (by simp [hkind])] at hspells
    have hlength := congrArg List.length hspells
    rw [List.length_drop, List.length_take] at hlength
    refine ⟨s.first + n, by omega, ?_⟩
    have hslice : (cs.take (s.first + n)).drop s.first = t.text.toList.take n := by
      rw [← hspells, List.drop_take, List.drop_take, List.take_take]
      congr 1
      omega
    rw [hposition, ← hslice, Position.after_ofOffset (Nat.le_add_right _ _)]

end Span

/-- **The tokens of a source stand in a row**, each over where the next one begins, or before; the
end of the input comes once, after all of them.  A place inside a token is one of the source. -/
theorem Token.inOrder_scan (source : String) :
    ∃ body stop, (Token.scan source).tokens = body ++ [stop] ∧ InOrder stop body ∧
      (∀ t ∈ body, t.kind ≠ .endOfInput) ∧
      ∀ t ∈ body ++ [stop], ∀ p, t.Holds p →
        ∃ n ≤ source.toList.length, p = .ofOffset source.toList n := by
  have hsource := fun {s : Span} (hs : s ∈ Lexeme.spans 0 .start (Lexeme.split false source.toList)) =>
    Lexeme.isOf_of_mem_spans hs
  refine ⟨(Lexeme.spans 0 .start (Lexeme.split false source.toList)).filterMap Span.token?,
    ⟨.endOfInput, "", .ofOffset source.toList source.toList.length⟩, ?_, ⟨rfl, ?_⟩, ?_, ?_⟩
  · rw [Lexeme.filterMap_token?_spans, ← Position.after_start]
    rfl
  · rw [List.pairwise_append, List.pairwise_filterMap]
    refine ⟨?_, List.pairwise_singleton _ _, ?_⟩
    · refine (Lexeme.pairwise_spans 0 .start _).imp_of_mem fun {s s'} hs hs' hst t ht u hu => ?_
      obtain ⟨ht, htext⟩ := Span.after_le_of_isOf (hsource hs) ht
      obtain ⟨hu, -⟩ := Span.after_le_of_isOf (hsource hs') hu
      have := (hsource hs).nonempty
      have := (hsource hs').nonempty
      have := (hsource hs').bounded
      rw [ht] at htext
      refine ⟨?_, ?_⟩
      · rw [ht, hu, Position.lt_iff_before]
        exact Position.before_ofOffset (by omega) (by omega)
      · rw [ht, hu]
        exact htext.trans (Position.ofOffset_le hst)
    · intro t ht u hu
      obtain rfl := List.mem_singleton.mp hu
      obtain ⟨s, hs, ht⟩ := List.mem_filterMap.mp ht
      obtain ⟨ht, htext⟩ := Span.after_le_of_isOf (hsource hs) ht
      have := (hsource hs).nonempty
      have := (hsource hs).bounded
      refine ⟨?_, htext.trans (Position.ofOffset_le (hsource hs).bounded)⟩
      rw [ht, Position.lt_iff_before]
      exact Position.before_ofOffset (by omega) (by omega)
  · intro t ht
    obtain ⟨s, hs, ht⟩ := List.mem_filterMap.mp ht
    exact ((hsource hs).spelled t ht).1
  · intro t ht p hp
    rcases List.mem_append.mp ht with ht | ht
    · obtain ⟨s, hs, ht⟩ := List.mem_filterMap.mp ht
      exact Span.exists_ofOffset_of_holds (hsource hs) ht hp
    · obtain rfl := List.mem_singleton.mp ht
      rcases hp with rfl | ⟨hkind, -⟩
      · exact ⟨_, Nat.le_refl _, rfl⟩
      · cases hkind

end Schemata
