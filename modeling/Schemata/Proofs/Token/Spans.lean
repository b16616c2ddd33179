import Mathlib.Data.List.Infix
import Mathlib.Data.List.Pairwise
import Schemata.Token.Lexeme

/-!
# Proofs — tokens — spans

Where in a source its tokens stand.  Every token, and every piece that is dropped, is made of one
stretch of the source (`Span`), and the stretches follow one another; what is left between them is
blank or a comment.

* `Lexeme.first_fits` — what a lexeme is made of, whichever it is.
* `Lexeme.spans` — the stretches of a row of lexemes, with the place of the first.
* `Token.scan_spans` — nothing is lost and nothing is misplaced.
-/

namespace Schemata

open Text

/-! ### Places -/

/-- The place of an offset of a text: a line more than there are newlines before it, and a column
that is counted from the last of them. -/
def Position.ofOffset (cs : List Char) (offset : Nat) : Position :=
  { line := 1 + (cs.take offset).count '\n'
    column := 1 + ((cs.take offset).reverse.takeWhile (· != '\n')).length }

namespace Position

/-- Going through a text character by character leads to the place of its end. -/
theorem after_start (cs : List Char) : start.after cs = ofOffset cs cs.length := by
  unfold ofOffset
  rw [List.take_length]
  induction cs using List.reverseRecOn with
  | nil => rfl
  | append_singleton cs c ih =>
      rw [after_append, ih, after_cons, after_nil, List.reverse_concat]
      unfold advance
      by_cases hc : c = '\n'
      · subst hc
        simp [Int.add_assoc]
      · simp [hc, Int.add_assoc]

theorem ofOffset_append (cs ds : List Char) :
    ofOffset (cs ++ ds) cs.length = start.after cs := by
  rw [after_start]
  unfold ofOffset
  simp

/-- A place is before another one exactly as its offset is. -/
theorem before_ofOffset {cs : List Char} {a b : Nat} (hab : a < b) (hb : b ≤ cs.length) :
    (ofOffset cs a).Before (ofOffset cs b) := by
  obtain ⟨mid, hmid⟩ : cs.take a <+: cs.take b := List.take_prefix_take_left (Nat.le_of_lt hab)
  have hlen := congrArg List.length hmid
  rw [List.length_append, List.length_take, List.length_take] at hlen
  unfold Before ofOffset
  rw [← hmid, List.count_append, List.reverse_append]
  by_cases hnewline : '\n' ∈ mid
  · have := List.count_pos_iff.mpr hnewline
    left
    dsimp only
    omega
  · have hnone : ∀ c ∈ mid.reverse, (c != '\n') = true := fun c hc =>
      bne_iff_ne.mpr fun h => hnewline (h ▸ List.mem_reverse.mp hc)
    right
    rw [List.takeWhile_append_of_pos hnone, List.count_eq_zero.mpr hnewline, List.length_append,
      List.length_reverse]
    dsimp only
    omega

end Position

/-! ### What lexemes are made of -/

/-- A comment and what comes after it: the rest of a line, or the text up to the first sign that
closes it. -/
inductive IsComment : List Char → List Char → Prop
  | line {body rest : List Char} (inLine : '\n' ∉ body) (ends : ∀ c ∈ rest.head?, c = '\n') :
      IsComment ('/' :: '/' :: body) rest
  | block {body rest : List Char} (first : ¬ ['*', '/'] <:+: body) :
      IsComment ('/' :: '*' :: (body ++ ['*', '/'])) rest

/-- The text that a token is made of is its value; for a string literal, its value between two equal
quotes. -/
def TokenKind.Spells (kind : TokenKind) (value : String) (text : List Char) : Prop :=
  if kind = .stringLiteral then
    ∃ quote, (quote = '"' ∨ quote = '\'') ∧ text = quote :: value.toList ++ [quote]
  else text = value.toList

namespace Lexeme

/-- What the kind of a lexeme says of its text, and of the text after it. -/
def Fits (x : Lexeme) (rest : List Char) : Prop :=
  match x.kind with
  | .blank => (∀ c ∈ x.text, isBlank c) ∨ IsComment x.text rest
  | .token kind value => kind ≠ .endOfInput ∧ kind ≠ .unknown ∧ kind.Spells value x.text
  | .dropped _ => True

/-- A comment ends where it is closed first. -/
theorem commentTail_eq_append {cs tail : List Char} (h : commentTail cs = some tail) :
    ∃ body, tail = body ++ ['*', '/'] ∧ ¬ ['*', '/'] <:+: body := by
  fun_induction commentTail cs generalizing tail with
  | case1 => cases h
  | case2 cs =>
      cases h
      exact ⟨[], rfl, by simp⟩
  | case3 c cs hfirst ih =>
      obtain ⟨t, ht, rfl⟩ := Option.map_eq_some_iff.mp h
      obtain ⟨body, rfl, hbody⟩ := ih ht
      refine ⟨c :: body, rfl, fun hinfix => ?_⟩
      rcases List.infix_cons_iff.mp hinfix with hfront | hinfix
      · obtain ⟨rfl, hslash⟩ := List.cons_prefix_cons.mp hfront
        have htail := commentTail_prefix ht
        obtain ⟨ds, hds⟩ := (hslash.trans (List.prefix_append body _)).trans htail
        exact hfirst ds rfl hds.symm
      · exact hbody hinfix

theorem mem_of_ofSign? {c : Char} {kind : TokenKind} (h : TokenKind.ofSign? c = some kind) :
    kind ∈ [.closeBrace, .openParen, .closeParen, .openBracket, .closeBracket, .comma, .colon] := by
  unfold TokenKind.ofSign? at h
  split at h <;> cases h <;> decide

/-- A word is of the kind of an identifier or a keyword. -/
theorem ofWord_mem (word : String) :
    TokenKind.ofWord word ∈ .identifier :: keywords.map Prod.snd := by
  unfold TokenKind.ofWord
  cases h : keywords.lookup word with
  | none => exact List.mem_cons_self
  | some kind =>
      obtain ⟨l, r, hl, -⟩ := List.lookup_eq_some_iff.mp h
      exact List.mem_cons_of_mem _ (List.mem_map.mpr ⟨(word, kind), by rw [hl]; simp, rfl⟩)

/-- One word alone is of the kind of `json`. -/
theorem eq_json_of_ofWord {text : String} (h : TokenKind.ofWord text = .jsonType) :
    text = "json" := by
  unfold TokenKind.ofWord at h
  cases hlookup : keywords.lookup text with
  | none =>
      rw [hlookup] at h
      cases h
  | some kind =>
      rw [hlookup] at h
      obtain ⟨before, after, hwords, -⟩ := List.lookup_eq_some_iff.mp hlookup
      have hall : ∀ p ∈ keywords, p.2 = .jsonType → p.1 = "json" := by decide
      exact hall (text, kind) (by rw [hwords]; simp) h

/-- No sign is the end of the input, and none is unknown or a literal. -/
theorem ofSign?_ne {c : Char} {kind : TokenKind} (h : TokenKind.ofSign? c = some kind) :
    kind ≠ .endOfInput ∧ kind ≠ .unknown ∧ kind ≠ .stringLiteral ∧ kind ≠ .numberLiteral := by
  have hall : ∀ k ∈ [.closeBrace, .openParen, .closeParen, .openBracket, .closeBracket, .comma,
      .colon], k ≠ TokenKind.endOfInput ∧ k ≠ .unknown ∧ k ≠ .stringLiteral ∧ k ≠ .numberLiteral := by
    decide
  exact hall kind (mem_of_ofSign? h)

/-- Nor is a word. -/
theorem ofWord_ne (word : String) : TokenKind.ofWord word ≠ .endOfInput ∧
    TokenKind.ofWord word ≠ .unknown ∧ TokenKind.ofWord word ≠ .stringLiteral ∧
    TokenKind.ofWord word ≠ .numberLiteral := by
  have hall : ∀ k ∈ .identifier :: keywords.map Prod.snd,
      k ≠ .endOfInput ∧ k ≠ .unknown ∧ k ≠ .stringLiteral ∧ k ≠ .numberLiteral := by decide
  exact hall _ (ofWord_mem word)

theorem spells_ofList {kind : TokenKind} (hkind : kind ≠ .stringLiteral) (text : List Char) :
    kind.Spells (String.ofList text) text := by
  rw [TokenKind.Spells, if_neg hkind, String.toList_ofList]

/-- What begins with a slash fits. -/
theorem slash_fits {cs rest : List Char} (h : (slash cs).text ++ rest = '/' :: cs) :
    (slash cs).Fits rest := by
  fun_cases slash cs with
  | case1 ds =>
      -- the rest of the source goes on where the line ends
      obtain rfl : rest = ds.dropWhile (· != '\n') := by
        have h : ds.takeWhile (· != '\n') ++ rest = ds := by simpa [slash] using h
        exact List.append_cancel_left (h.trans List.takeWhile_append_dropWhile.symm)
      refine .inr (.line (fun hmem => ?_) fun c hc => ?_)
      · simpa using List.all_eq_true.mp List.all_takeWhile _ hmem
      · have := List.head?_dropWhile_not (· != '\n') ds
        rw [Option.mem_def.mp hc] at this
        simpa using this
  | case2 ds tail htail =>
      obtain ⟨body, rfl, hbody⟩ := commentTail_eq_append htail
      exact .inr (.block hbody)
  | case3 => trivial
  | case4 => trivial

theorem brace_fits (armed : Bool) (cs rest : List Char) : (brace armed cs).Fits rest := by
  fun_cases brace armed cs with
  | case1 => exact ⟨by decide, by decide, spells_ofList (by decide) _⟩
  | case2 => trivial
  | case3 => exact ⟨by decide, by decide, rfl⟩

theorem atSign_fits (cs rest : List Char) : (atSign cs).Fits rest := by
  fun_cases atSign cs with
  | case1 => exact ⟨by decide, by decide, spells_ofList (by decide) _⟩
  | case2 => trivial
  | case3 => exact ⟨by decide, by decide, rfl⟩

theorem string_fits {quote : Char} (hquote : quote = '"' ∨ quote = '\'') (cs rest : List Char) :
    (string quote cs).Fits rest := by
  fun_cases string quote cs with
  | case1 body =>
      refine ⟨by decide, by decide, ?_⟩
      rw [TokenKind.Spells, if_pos rfl]
      exact ⟨quote, hquote, by rw [String.toList_ofList]⟩
  | case2 => trivial

theorem word_fits (c : Char) (cs rest : List Char) : (word c cs).Fits rest := by
  obtain ⟨hend, hunknown, hstring, -⟩ := ofWord_ne (String.ofList (c :: cs.takeWhile isWordPart))
  exact ⟨hend, hunknown, spells_ofList hstring _⟩

theorem number_fits (c : Char) (cs rest : List Char) : (number c cs).Fits rest := by
  fun_cases number c cs with
  | case1 => trivial
  | case2 => exact ⟨by decide, by decide, spells_ofList (by decide) _⟩
  | case3 => exact ⟨by decide, by decide, spells_ofList (by decide) _⟩

/-- **A lexeme is what its kind says.** -/
theorem first_fits {armed : Bool} {c : Char} {cs rest : List Char}
    (h : (first armed c cs).text ++ rest = c :: cs) : (first armed c cs).Fits rest := by
  fun_cases first armed c cs with
  | case1 hc =>
      left
      intro d hd
      rcases List.mem_cons.mp hd with rfl | hd
      · exact hc
      · exact List.all_eq_true.mp List.all_takeWhile _ hd
  | case2 hblank hslash =>
      rw [first, if_neg hblank, if_pos hslash, hslash] at h
      exact slash_fits h
  | case3 => exact brace_fits armed cs rest
  | case4 => exact atSign_fits cs rest
  | case5 _ _ _ _ hquote => exact string_fits (by simpa using hquote) cs rest
  | case6 => exact word_fits c cs rest
  | case7 => exact number_fits c cs rest
  | case8 _ _ _ _ _ _ _ kind hsign =>
      obtain ⟨hend, hunknown, hstring, -⟩ := ofSign?_ne hsign
      exact ⟨hend, hunknown, spells_ofList hstring [c]⟩
  | case9 => trivial

/-- Each lexeme of a source begins the part of it that it stands before, and the lexemes before it
tell whether a brace would begin a raw block there. -/
theorem exists_first_of_split {armed : Bool} {cs : List Char} {before after : List Lexeme}
    {x : Lexeme} (h : split armed cs = before ++ x :: after) :
    ∃ armed' c ds, before.foldl arms armed = armed' ∧ x = first armed' c ds ∧
      x.text ++ after.flatMap Lexeme.text = c :: ds := by
  induction before generalizing armed cs with
  | nil =>
      have hcs := split_flatMap armed cs
      cases cs with
      | nil => rw [split] at h; cases h
      | cons c cs =>
          rw [h] at hcs
          rw [split] at h
          exact ⟨armed, c, cs, rfl, (List.cons.inj h).1.symm, by simpa using hcs⟩
  | cons y before ih =>
      cases cs with
      | nil => rw [split] at h; cases h
      | cons c cs =>
          rw [split] at h
          obtain ⟨rfl, hrest⟩ := List.cons.inj h
          exact ih hrest

end Lexeme

/-! ### Spans -/

/-- A stretch of a source, from one offset up to another, and what was made of it: a token, or a
fault for why it was dropped. -/
structure Span where
  first : Nat
  stop : Nat
  found : Except LexFault Token

namespace Span

def token? (s : Span) : Option Token := s.found.toOption

def fault? (s : Span) : Option LexFault :=
  match s.found with
  | .ok _ => none
  | .error e => some e

/-- The place where the token or the fault is reported. -/
def position (s : Span) : Position :=
  match s.found with
  | .ok t => t.position
  | .error e => e.position

/-- The fault of a span stands where the span does. -/
theorem position_of_fault? {s : Span} {e : LexFault} (h : s.fault? = some e) :
    e.position = s.position := by
  unfold fault? at h
  unfold position
  split at h
  next => cases h
  next =>
      cases h
      rfl

/-- The offset is of a character in the span. -/
def Holds (s : Span) (offset : Nat) : Prop := s.first ≤ offset ∧ offset < s.stop

/-- A span of a source: it is not empty, what was made of it stands at the place of its first
character, and a token has its text for its value. -/
structure IsOf (s : Span) (cs : List Char) : Prop where
  nonempty : s.first < s.stop
  bounded : s.stop ≤ cs.length
  placed : s.position = .ofOffset cs s.first
  spelled : ∀ t ∈ s.token?, t.kind ≠ .endOfInput ∧ t.kind ≠ .unknown ∧
    t.kind.Spells t.text ((cs.take s.stop).drop s.first)

end Span

namespace Lexeme

/-- The span of a lexeme that stands at an offset and a place. -/
def span? (offset : Nat) (p : Position) (x : Lexeme) : Option Span :=
  match x.kind with
  | .blank => none
  | .token kind value => some ⟨offset, offset + x.text.length, .ok ⟨kind, value, p⟩⟩
  | .dropped problem => some ⟨offset, offset + x.text.length, .error ⟨problem, p⟩⟩

/-- The spans of lexemes, the first of which stands at an offset and a place. -/
def spans (offset : Nat) (p : Position) : List Lexeme → List Span
  | [] => []
  | x :: xs => (x.span? offset p).toList ++ spans (offset + x.text.length) (p.after x.text) xs

theorem span?_eq_some {offset : Nat} {p : Position} {x : Lexeme} {s : Span}
    (h : x.span? offset p = some s) :
    s.first = offset ∧ s.stop = offset + x.text.length ∧ s.position = p := by
  unfold span? at h
  split at h <;> cases h <;> exact ⟨rfl, rfl, rfl⟩

/-- The tokens of spans are those of lexemes at their places. -/
theorem filterMap_token?_spans (offset : Nat) (p : Position) (xs : List Lexeme) :
    (spans offset p xs).filterMap Span.token? =
      (placed p xs).filterMap fun (q, x) => x.token? q := by
  induction xs generalizing offset p with
  | nil => rfl
  | cons x xs ih =>
      rw [spans, placed, List.filterMap_append, ih]
      cases hx : x.kind <;> simp [span?, Lexeme.token?, hx, Span.token?, Except.toOption]

theorem filterMap_fault?_spans (offset : Nat) (p : Position) (xs : List Lexeme) :
    (spans offset p xs).filterMap Span.fault? =
      (placed p xs).filterMap fun (q, x) => x.fault? q := by
  induction xs generalizing offset p with
  | nil => rfl
  | cons x xs ih =>
      rw [spans, placed, List.filterMap_append, ih]
      cases hx : x.kind <;> simp [span?, Lexeme.fault?, hx, Span.fault?]

/-- The spans of lexemes after others begin where those end. -/
theorem spans_append (offset : Nat) (p : Position) (xs ys : List Lexeme) :
    spans offset p (xs ++ ys) = spans offset p xs ++
      spans (offset + (xs.flatMap text).length) (p.after (xs.flatMap text)) ys := by
  induction xs generalizing offset p with
  | nil => rfl
  | cons x xs ih =>
      rw [List.cons_append, spans, ih, spans, List.flatMap_cons, List.length_append,
        Position.after_append, List.append_assoc, Nat.add_assoc]

/-- Spans lie within the text of their lexemes. -/
theorem bounds_of_mem_spans {offset : Nat} {p : Position} {xs : List Lexeme} {s : Span}
    (h : s ∈ spans offset p xs) :
    offset ≤ s.first ∧ s.stop ≤ offset + (xs.flatMap text).length := by
  induction xs generalizing offset p with
  | nil => cases h
  | cons x xs ih =>
      rw [List.flatMap_cons, List.length_append]
      rcases List.mem_append.mp h with h | h
      · obtain ⟨hfirst, hstop, -⟩ := span?_eq_some (Option.mem_toList.mp h)
        omega
      · have := ih h
        omega

/-- Spans come one after the other. -/
theorem pairwise_spans (offset : Nat) (p : Position) (xs : List Lexeme) :
    (spans offset p xs).Pairwise fun s t => s.stop ≤ t.first := by
  induction xs generalizing offset p with
  | nil => exact .nil
  | cons x xs ih =>
      rw [spans, List.pairwise_append]
      refine ⟨?_, ih _ _, fun s hs t ht => ?_⟩
      · cases x.span? offset p <;> simp
      · rw [(span?_eq_some (Option.mem_toList.mp hs)).2.1]
        exact (bounds_of_mem_spans ht).1

/-- A span is the one of some lexeme. -/
theorem exists_of_mem_spans {offset : Nat} {p : Position} {xs : List Lexeme} {s : Span}
    (h : s ∈ spans offset p xs) :
    ∃ (before : List Lexeme) (x : Lexeme) (after : List Lexeme), xs = before ++ x :: after ∧
      x.span? (offset + (before.flatMap text).length) (p.after (before.flatMap text)) = some s := by
  induction xs generalizing offset p with
  | nil => cases h
  | cons x xs ih =>
      rcases List.mem_append.mp h with h | h
      · exact ⟨[], x, xs, rfl, Option.mem_toList.mp h⟩
      · obtain ⟨before, y, after, rfl, hy⟩ := ih h
        refine ⟨x :: before, y, after, rfl, ?_⟩
        rw [List.flatMap_cons, List.length_append, Position.after_append, ← Nat.add_assoc]
        exact hy

/-- Every character of a text belongs to a lexeme. -/
theorem exists_of_lt_length {xs : List Lexeme} {i : Nat} (h : i < (xs.flatMap text).length) :
    ∃ (before : List Lexeme) (x : Lexeme) (after : List Lexeme), xs = before ++ x :: after ∧
      (before.flatMap text).length ≤ i ∧ i < (before.flatMap text).length + x.text.length := by
  induction xs generalizing i with
  | nil => cases h
  | cons x xs ih =>
      rw [List.flatMap_cons, List.length_append] at h
      by_cases hi : i < x.text.length
      · exact ⟨[], x, xs, rfl, Nat.zero_le i, by simpa using hi⟩
      · obtain ⟨before, y, after, rfl, hlow, hhigh⟩ := ih (i := i - x.text.length) (by omega)
        refine ⟨x :: before, y, after, rfl, ?_⟩
        rw [List.flatMap_cons, List.length_append]
        omega

/-- The text of a lexeme is the stretch of the source from its offset up to its end. -/
theorem drop_take_append (before text after : List Char) :
    ((before ++ (text ++ after)).take (before.length + text.length)).drop before.length = text := by
  rw [List.take_length_add_append, List.drop_left, List.take_left]

/-- Each span of a text is what it says. -/
theorem isOf_of_mem_spans {cs : List Char} {s : Span}
    (h : s ∈ spans 0 .start (split false cs)) : s.IsOf cs := by
  obtain ⟨before, x, after, hsplit, hspan⟩ := exists_of_mem_spans h
  obtain ⟨armed, c, ds, -, rfl, hrest⟩ := exists_first_of_split hsplit
  have hcs : before.flatMap text ++ ((first armed c ds).text ++ after.flatMap text) = cs := by
    rw [← split_flatMap false cs, hsplit, List.flatMap_append, List.flatMap_cons]
  obtain ⟨hfirst, hstop, hposition⟩ := span?_eq_some hspan
  rw [Nat.zero_add] at hfirst hstop
  subst hcs
  refine ⟨?_, ?_, ?_, fun t ht => ?_⟩
  · have := List.length_pos_iff.mpr (text_ne_nil armed c ds)
    omega
  · rw [List.length_append, List.length_append]
    omega
  · rw [hposition, hfirst, Position.ofOffset_append]
  · have hfits := first_fits hrest
    rw [hfirst, hstop, drop_take_append]
    unfold Fits at hfits
    unfold span? at hspan
    split at hspan
    next => cases hspan
    next kind value hkind =>
        rw [hkind] at hfits
        cases hspan
        cases ht
        exact hfits
    next =>
        cases hspan
        cases ht

end Lexeme

/-- The character at an offset is blank, or it stands in a comment that no span reaches into. -/
def IsSkipped (cs : List Char) (spans : List Span) (offset : Nat) : Prop :=
  (∃ c, cs[offset]? = some c ∧ isBlank c) ∨
    ∃ first stop, first ≤ offset ∧ offset < stop ∧
      IsComment ((cs.take stop).drop first) (cs.drop stop) ∧
      ∀ s ∈ spans, s.stop ≤ first ∨ stop ≤ s.first

namespace Lexeme

/-- **What is in no span** is skipped. -/
theorem isSkipped_of_not_holds {cs : List Char} {i : Nat} (hi : i < cs.length)
    (h : ∀ s ∈ spans 0 .start (split false cs), ¬ s.Holds i) :
    IsSkipped cs (spans 0 .start (split false cs)) i := by
  rw [← split_flatMap false cs] at hi
  obtain ⟨before, x, after, hsplit, hlow, hhigh⟩ := exists_of_lt_length hi
  obtain ⟨armed, c, ds, -, rfl, hrest⟩ := exists_first_of_split hsplit
  have hcs : before.flatMap text ++ ((first armed c ds).text ++ after.flatMap text) = cs := by
    rw [← split_flatMap false cs, hsplit, List.flatMap_append, List.flatMap_cons]
  have hspans := spans_append 0 .start before (first armed c ds :: after)
  rw [← hsplit, Nat.zero_add, spans] at hspans
  -- a lexeme that was made anything of would have a span here
  have hspan : (first armed c ds).span? (before.flatMap text).length
      (Position.start.after (before.flatMap text)) = none := by
    rw [Option.eq_none_iff_forall_not_mem]
    intro s hs
    obtain ⟨hfirst, hstop, -⟩ := span?_eq_some hs
    refine h s ?_ ⟨hfirst ▸ hlow, hstop ▸ hhigh⟩
    rw [hspans]
    exact List.mem_append_right _ (List.mem_append_left _ (Option.mem_toList.mpr hs))
  have hkind : (first armed c ds).kind = .blank := by
    unfold span? at hspan
    split at hspan
    next hkind => exact hkind
    next => cases hspan
    next => cases hspan
  have hfits := first_fits hrest
  unfold Fits at hfits
  rw [hkind] at hfits
  rcases hfits with hblank | hcomment
  · left
    subst hcs
    refine ⟨(first armed c ds).text[i - (before.flatMap text).length], ?_,
      hblank _ (List.getElem_mem _)⟩
    rw [List.getElem?_append_right hlow, List.getElem?_append_left (by omega)]
    exact List.getElem?_eq_getElem _
  · refine .inr ⟨_, _, hlow, hhigh, ?_, fun s hs => ?_⟩
    · subst hcs
      rw [drop_take_append, ← List.drop_drop, List.drop_left, List.drop_left]
      exact hcomment
    · rw [hspans, hspan] at hs
      rcases List.mem_append.mp hs with hs | hs
      · have := (bounds_of_mem_spans hs).2
        omega
      · exact .inr (bounds_of_mem_spans hs).1

end Lexeme

/-- The tokens of a source are those that its lexemes are, and after them the end. -/
theorem Token.exists_body (source : String) :
    ∃ (body : List Token) (stop : Token),
      (scan source).tokens = body ++ [stop] ∧ stop.kind = .endOfInput ∧
      ∀ t ∈ body, t.kind ≠ .endOfInput ∧
        ∃ armed c cs, (Lexeme.first armed c cs).kind = .token t.kind t.text := by
  refine ⟨_, _, rfl, rfl, fun t ht => ?_⟩
  rw [← Lexeme.filterMap_token?_spans 0] at ht
  obtain ⟨s, hs, hst⟩ := List.mem_filterMap.mp ht
  refine ⟨((Lexeme.isOf_of_mem_spans hs).spelled t hst).1, ?_⟩
  obtain ⟨before, x, after, hsplit, hspan⟩ := Lexeme.exists_of_mem_spans hs
  obtain ⟨armed, c, cs, -, rfl, -⟩ := Lexeme.exists_first_of_split hsplit
  refine ⟨armed, c, cs, ?_⟩
  unfold Lexeme.span? at hspan
  split at hspan <;> cases hspan <;> cases hst
  assumption

/-- **Nothing is lost and nothing is misplaced.**  The tokens of a source, but for the end, and the
pieces that are dropped are made of stretches of it that follow one another: each stands at the
place of its first character, and the value of a token is its text, quotes apart.  Every other
character is blank or stands in a comment.  After the tokens comes the only end of the input, at the
end of the source, and no token is an unknown one; the faults come in the order of their places. -/
theorem Token.scan_spans (source : String) :
    ∃ spans : List Span,
      (spans.Pairwise fun s t => s.stop ≤ t.first) ∧
      (∀ s ∈ spans, s.IsOf source.toList) ∧
      (∀ i < source.toList.length, (∀ s ∈ spans, ¬ s.Holds i) →
        IsSkipped source.toList spans i) ∧
      (Token.scan source).tokens = spans.filterMap Span.token? ++
        [⟨.endOfInput, "", .ofOffset source.toList source.toList.length⟩] ∧
      (Token.scan source).faults = spans.filterMap Span.fault? ∧
      (Token.scan source).faults.Pairwise fun e f => e.position.Before f.position := by
  have hpairwise := Lexeme.pairwise_spans 0 .start (Lexeme.split false source.toList)
  have hfaults : (Token.scan source).faults =
      (Lexeme.spans 0 .start (Lexeme.split false source.toList)).filterMap Span.fault? :=
    (Lexeme.filterMap_fault?_spans _ _ _).symm
  refine ⟨Lexeme.spans 0 .start (Lexeme.split false source.toList), hpairwise,
    fun s hs => Lexeme.isOf_of_mem_spans hs, fun i hi h => Lexeme.isSkipped_of_not_holds hi h, ?_,
    hfaults, ?_⟩
  · rw [Lexeme.filterMap_token?_spans, ← Position.after_start]
    rfl
  · rw [hfaults, List.pairwise_filterMap]
    refine hpairwise.imp_of_mem fun {s t} hs ht hst e he f hf => ?_
    have hsource := Lexeme.isOf_of_mem_spans hs
    have hsource' := Lexeme.isOf_of_mem_spans ht
    rw [Span.position_of_fault? he, Span.position_of_fault? hf, hsource.placed, hsource'.placed]
    have := hsource.nonempty
    have := hsource'.nonempty
    have := hsource'.bounded
    exact Position.before_ofOffset (by omega) (by omega)

end Schemata
