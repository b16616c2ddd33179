import Schemata.Proofs.Shape.Nesting
import Schemata.Proofs.Token.Words

/-!
# Proofs — tokens — raw blocks

Which opening braces begin a raw block, and where the block ends.  The mode in which a brace is read
is carried from lexeme to lexeme; here it is given by the lexemes before the brace alone
(`Lexeme.AfterJson`), whatever pieces of the source are dropped among them.

* `Lexeme.foldl_arms_iff` — the mode at a place of a source, by the lexemes before it.
* `Lexeme.isBlock_of_blockTail`, `Lexeme.not_isBlock_of_blockTail` — a block ends with the first
  brace that leaves as many closed as opened, or there is none such.
* `Token.scan_openBraces` — what becomes of every opening brace that stands in no string, comment or
  block, and what stands before a token that is a block.
-/

namespace Schemata

open Text

/-! ### Where a block ends -/

/-- The block at the front of a text: the part of it up to the first brace that leaves as many
closed as opened. -/
structure Text.IsBlock (block cs : List Char) : Prop where
  stands : block <+: cs
  braced : IsBraced block

/-- Of two braced texts, neither goes on with the other. -/
theorem IsBraced.eq_of_prefix {block block' : List Char} (h : IsBraced block)
    (h' : IsBraced block') (hpart : block <+: block') : block = block' := by
  obtain ⟨after, rfl⟩ := hpart
  cases after with
  | nil => rw [List.append_nil]
  | cons c after =>
      have hne : block ≠ [] := by
        rintro rfl
        cases h.opens
      have hinside := h'.inside block (c :: after) rfl hne (List.cons_ne_nil c after)
      exact absurd h.balanced hinside.ne'

theorem Text.IsBlock.unique {block block' cs : List Char} (h : IsBlock block cs)
    (h' : IsBlock block' cs) : block = block' := by
  rcases List.prefix_or_prefix_of_prefix h.stands h'.stands with hpart | hpart
  · exact h.braced.eq_of_prefix h'.braced hpart
  · exact (h'.braced.eq_of_prefix h.braced hpart).symm

namespace Lexeme

/-- A text closes the braces that it opens, and `depth` others. -/
def Balances (depth : Nat) (part : List Char) : Prop :=
  part.count '{' + depth = part.count '}'

section

variable {depth depth' : Nat} {c : Char} {part cs : List Char}

theorem balances_open_cons : Balances depth ('{' :: part) ↔ Balances (depth + 1) part := by
  unfold Balances
  rw [List.count_cons_self, List.count_cons_of_ne (by decide)]
  omega

theorem balances_close_cons (hdepth : 0 < depth) :
    Balances depth ('}' :: part) ↔ Balances (depth - 1) part := by
  unfold Balances
  rw [List.count_cons_self, List.count_cons_of_ne (by decide)]
  omega

theorem balances_cons_of_ne (hopen : c ≠ '{') (hclose : c ≠ '}') :
    Balances depth (c :: part) ↔ Balances depth part := by
  unfold Balances
  rw [List.count_cons_of_ne hopen, List.count_cons_of_ne hclose]

theorem not_balances_nil (hdepth : 0 < depth) : ¬ Balances depth [] := by
  simpa [Balances] using hdepth.ne'

/-- No part balances in front of a text if none does after its first character. -/
theorem not_balances_cons (hdepth : 0 < depth)
    (hcons : ∀ part, Balances depth (c :: part) ↔ Balances depth' part)
    (h : ∀ part, part <+: cs → ¬ Balances depth' part) :
    ∀ part, part <+: c :: cs → ¬ Balances depth part := by
  intro part hpart
  rcases List.prefix_cons_iff.mp hpart with rfl | ⟨rest, rfl, hrest⟩
  · exact not_balances_nil hdepth
  · rw [hcons]
    exact h rest hrest

/-- Where nothing is found to close `depth` braces, no part of the text does. -/
theorem not_balances_of_blockTail (hdepth : 0 < depth) (h : blockTail depth cs = none) :
    ∀ part, part <+: cs → ¬ Balances depth part := by
  fun_induction blockTail depth cs with
  | case1 =>
      intro part hpart
      rw [List.prefix_nil.mp hpart]
      exact not_balances_nil hdepth
  | case2 depth cs ih =>
      exact not_balances_cons hdepth (fun _ => balances_open_cons)
        (ih (Nat.succ_pos depth) (Option.map_eq_none_iff.mp h))
  | case3 => cases h
  | case4 depth cs _ hmore ih =>
      exact not_balances_cons hdepth (fun _ => balances_close_cons hdepth)
        (ih (by omega) (Option.map_eq_none_iff.mp h))
  | case5 depth c cs hopen hclose ih =>
      exact not_balances_cons hdepth (fun _ => balances_cons_of_ne hopen hclose)
        (ih hdepth (Option.map_eq_none_iff.mp h))

end

/-- After its opening brace, a block closes one more than it opens. -/
theorem balances_one_iff {part : List Char} :
    Balances 1 part ↔ ('{' :: part).count '{' = ('{' :: part).count '}' := by
  rw [← Nat.zero_add 1, ← balances_open_cons]
  rfl

theorem isBlock_of_blockTail {cs tail : List Char} (h : blockTail 1 cs = some tail) :
    IsBlock ('{' :: tail) ('{' :: cs) :=
  ⟨List.cons_prefix_cons.mpr ⟨rfl, blockTail_prefix h⟩, isBraced_of_blockTail h⟩

theorem not_isBlock_of_blockTail {cs : List Char} (h : blockTail 1 cs = none) (block : List Char) :
    ¬ IsBlock block ('{' :: cs) := by
  intro hblock
  rcases List.prefix_cons_iff.mp hblock.stands with rfl | ⟨rest, rfl, hrest⟩
  · cases hblock.braced.opens
  · exact not_balances_of_blockTail Nat.one_pos h rest hrest
      (balances_one_iff.mpr hblock.braced.balanced)

/-! ### The mode -/

/-- What may stand between the word `json` and its block: blanks, a comment, or a square bracket. -/
def IsPassed (x : Lexeme) : Prop :=
  x.kind = .blank ∨ x.kind = .token .openBracket "[" ∨ x.kind = .token .closeBracket "]"

/-- Going back over lexemes, and over blanks, comments and square brackets, one comes to the word
`json`. -/
def AfterJson (before : List Lexeme) : Prop :=
  ∃ (earlier : List Lexeme) (json : Lexeme) (between : List Lexeme),
    before = earlier ++ json :: between ∧ json.kind = .token .jsonType "json" ∧
      ∀ x ∈ between, x.IsPassed

theorem not_afterJson_nil : ¬ AfterJson [] := by
  rintro ⟨earlier, json, between, h, -⟩
  simp at h

/-- Going back over one more lexeme, one comes to `json` exactly if it is that word, or may stand
behind it and one came to it before. -/
theorem afterJson_concat {before : List Lexeme} {x : Lexeme} :
    AfterJson (before ++ [x]) ↔
      x.kind = .token .jsonType "json" ∨ x.IsPassed ∧ AfterJson before := by
  constructor
  · rintro ⟨earlier, json, between, h, hjson, hbetween⟩
    rcases between.eq_nil_or_concat' with rfl | ⟨between, y, rfl⟩
    · obtain ⟨-, hx⟩ := List.append_inj' h rfl
      rw [(List.cons.inj hx).1]
      exact .inl hjson
    · rw [← List.cons_append, ← List.append_assoc] at h
      obtain ⟨rfl, hx⟩ := List.append_inj' h rfl
      cases hx
      exact .inr ⟨hbetween x (by simp), earlier, json, between, rfl, hjson, fun z hz =>
        hbetween z (by simp [hz])⟩
  · rintro (hx | ⟨hx, earlier, json, between, rfl, hjson, hbetween⟩)
    · exact ⟨before, x, [], rfl, hx, by simp⟩
    · refine ⟨earlier, json, between ++ [x], by simp, hjson, fun z hz => ?_⟩
      rcases List.mem_append.mp hz with hz | hz
      · exact hbetween z hz
      · rw [List.mem_singleton.mp hz]
        exact hx

/-- What the kind of a token that bears on the mode says of its value, and of the mode. -/
structure Bears (armed : Bool) (kind : TokenKind) (value : String) : Prop where
  json : kind = .jsonType → value = "json"
  opens : kind = .openBracket → value = "["
  closes : kind = .closeBracket → value = "]"
  block : kind = .rawObject → armed = true

/-- Tokens bear on the mode as their kinds say. -/
theorem first_bears {armed : Bool} {c : Char} {cs : List Char} {kind : TokenKind} {value : String} :
    (first armed c cs).kind = .token kind value → Bears armed kind value := by
  have other {kind : TokenKind} {value : String}
      (hkind : kind ∉ [.jsonType, .openBracket, .closeBracket, .rawObject]) :
      Bears armed kind value := by
    constructor <;> rintro rfl <;> exact absurd hkind (by decide)
  fun_cases first armed c cs with
  | case1 => rintro ⟨⟩
  | case2 => fun_cases slash cs <;> rintro ⟨⟩
  | case3 =>
      fun_cases brace armed cs with
      | case1 harmed =>
          rintro ⟨⟩
          exact ⟨by rintro ⟨⟩, by rintro ⟨⟩, by rintro ⟨⟩, fun _ => harmed⟩
      | case2 => rintro ⟨⟩
      | case3 => rintro ⟨⟩; exact other (by decide)
  | case4 =>
      fun_cases atSign cs with
      | case1 => rintro ⟨⟩; exact other (by decide)
      | case2 => rintro ⟨⟩
      | case3 => rintro ⟨⟩; exact other (by decide)
  | case5 =>
      fun_cases string c cs with
      | case1 => rintro ⟨⟩; exact other (by decide)
      | case2 => rintro ⟨⟩
  | case6 =>
      rintro ⟨⟩
      have hwords := ofWord_mem (String.ofList (c :: cs.takeWhile isWordPart))
      refine ⟨eq_json_of_ofWord, fun h => ?_, fun h => ?_, fun h => ?_⟩ <;>
        rw [h] at hwords <;> exact absurd hwords (by decide)
  | case7 =>
      fun_cases number c cs with
      | case1 => rintro ⟨⟩
      | case2 => rintro ⟨⟩; exact other (by decide)
      | case3 => rintro ⟨⟩; exact other (by decide)
  | case8 _ _ _ _ _ _ _ kind hsign =>
      rintro ⟨⟩
      unfold TokenKind.ofSign? at hsign
      split at hsign <;> cases hsign
      case h_4 | h_5 =>
          constructor <;> rintro ⟨⟩
          rfl
      all_goals exact other (by decide)
  | case9 => rintro ⟨⟩

/-- After a lexeme a brace would begin a block exactly if it is `json`, or may stand behind it and a
brace would have begun one before. -/
theorem arms_first {armed armed' : Bool} {c : Char} {cs : List Char} :
    arms armed (first armed' c cs) = true ↔
      (first armed' c cs).kind = .token .jsonType "json" ∨
        (first armed' c cs).IsPassed ∧ armed = true := by
  unfold arms IsPassed
  cases hkind : (first armed' c cs).kind with
  | blank => simp
  | dropped => simp
  | token kind value =>
      have hbears := first_bears hkind
      cases kind with
      | jsonType => simp [hbears.json rfl]
      | openBracket => simp [hbears.opens rfl]
      | closeBracket => simp [hbears.closes rfl]
      | _ => simp

/-- **The mode** at a place of a source: a brace there would begin a block exactly after `json`. -/
theorem foldl_arms_iff {before : List Lexeme}
    (h : ∀ x ∈ before, ∃ armed c cs, x = first armed c cs) :
    before.foldl arms false = true ↔ AfterJson before := by
  induction before using List.reverseRecOn with
  | nil => simpa using not_afterJson_nil
  | append_singleton before x ih =>
      obtain ⟨armed, c, cs, rfl⟩ := h x (by simp)
      rw [List.foldl_append, List.foldl_cons, List.foldl_nil, arms_first, afterJson_concat,
        ih fun y hy => h y (by simp [hy])]

/-- Where a source is cut, the mode is known, and the lexeme is the first of what is left. -/
theorem exists_first_afterJson {cs : List Char} {before after : List Lexeme} {x : Lexeme}
    (h : split false cs = before ++ x :: after) : ∃ armed c ds, (armed = true ↔ AfterJson before) ∧
      x = first armed c ds ∧ x.text ++ after.flatMap Lexeme.text = c :: ds := by
  obtain ⟨armed, c, ds, harmed, hx, hrest⟩ := exists_first_of_split h
  refine ⟨armed, c, ds, harmed ▸ foldl_arms_iff fun y hy => ?_, hx, hrest⟩
  obtain ⟨before, later, rfl⟩ := List.append_of_mem hy
  rw [List.append_assoc, List.cons_append] at h
  obtain ⟨armed, c, ds, -, hy, -⟩ := exists_first_of_split h
  exact ⟨armed, c, ds, hy⟩

/-! ### Where braces stand -/

theorem head?_first (armed : Bool) (c : Char) (cs : List Char) :
    (first armed c cs).text.head? = some c := by
  obtain ⟨d, ds, hd⟩ := List.exists_cons_of_ne_nil (text_ne_nil armed c cs)
  have hprefix := first_prefix armed c cs
  rw [hd] at hprefix ⊢
  rw [(List.cons_prefix_cons.mp hprefix).1, List.head?_cons]

/-- A string or a comment, closed or not: what begins with a quote or the sign of a comment. -/
def IsStringOrComment (x : Lexeme) : Prop :=
  x.text.head? = some '"' ∨ x.text.head? = some '\'' ∨
    ['/', '/'] <+: x.text ∨ ['/', '*'] <+: x.text

theorem brace_notMem_takeWhile {p : Char → Bool} (hp : p '{' = false) (cs : List Char) :
    '{' ∉ cs.takeWhile p := fun hmem => by
  rw [List.all_eq_true.mp List.all_takeWhile _ hmem] at hp
  cases hp

/-- An opening brace stands in a string, in a comment, or at the front of a lexeme. -/
theorem isStringOrComment_of_brace_mem {armed : Bool} {c : Char} {cs : List Char}
    (hc : c ≠ '{') : '{' ∈ (first armed c cs).text → (first armed c cs).IsStringOrComment := by
  have hblank := brace_notMem_takeWhile (p := isBlank) (by decide)
  have hpart := brace_notMem_takeWhile (p := isWordPart) (by decide)
  have hdigit := brace_notMem_takeWhile (p := isDigit) (by decide)
  unfold IsStringOrComment
  fun_cases first armed c cs with
  | case1 => simp [hc.symm, hblank]
  | case2 =>
      fun_cases slash cs with
      | case1 => exact fun _ => .inr (.inr (.inl ⟨_, rfl⟩))
      | case2 => exact fun _ => .inr (.inr (.inr ⟨_, rfl⟩))
      | case3 => exact fun _ => .inr (.inr (.inr ⟨_, rfl⟩))
      | case4 => exact fun hmem => absurd hmem (by decide)
  | case3 _ _ hbrace => exact absurd hbrace hc
  | case4 => fun_cases atSign cs <;> simp +zetaDelta [hpart]
  | case5 _ _ _ _ hquote =>
      have hquote : c = '"' ∨ c = '\'' := by simpa using hquote
      fun_cases string c cs <;> rcases hquote with rfl | rfl <;> simp
  | case6 => simp [word, hc.symm, hpart]
  | case7 => fun_cases number c cs <;> simp +zetaDelta [hc.symm, hdigit]
  | case8 => simp [hc.symm]
  | case9 => simp [hc.symm]

/-! ### Tokens and faults of a cut -/

/-- Lexemes after others stand where those end. -/
theorem placed_append (p : Position) (xs ys : List Lexeme) :
    placed p (xs ++ ys) = placed p xs ++ placed (p.after (xs.flatMap text)) ys := by
  induction xs generalizing p with
  | nil => rfl
  | cons x xs ih =>
      rw [List.cons_append, placed, ih, placed, List.cons_append, List.flatMap_cons,
        Position.after_append]

/-- The place in a source where the lexemes before it end. -/
def placeAfter (source : String) (before : List Lexeme) : Position :=
  .ofOffset source.toList (before.flatMap text).length

theorem placeAfter_eq {source : String} {before after : List Lexeme}
    (h : split false source.toList = before ++ after) :
    placeAfter source before = Position.start.after (before.flatMap text) := by
  rw [placeAfter, ← Position.ofOffset_append _ (after.flatMap text), ← List.flatMap_append, ← h,
    split_flatMap]

/-- The token that a lexeme of a source is stands at the place of its first character. -/
theorem mem_tokens_of_split {source : String} {before after : List Lexeme} {x : Lexeme}
    {kind : TokenKind} {value : String} (h : split false source.toList = before ++ x :: after)
    (hkind : x.kind = .token kind value) :
    ⟨kind, value, placeAfter source before⟩ ∈ (Token.scan source).tokens := by
  rw [placeAfter_eq h]
  refine List.mem_append_left _ (List.mem_filterMap.mpr
    ⟨(Position.start.after (before.flatMap text), x), ?_, by simp [token?, hkind]⟩)
  rw [h, placed_append]
  exact List.mem_append_right _ List.mem_cons_self

/-- The tokens up to one of a row of lexemes are those of the lexemes up to one. -/
theorem exists_split_of_tokens {p : Position} {xs : List Lexeme} {before after : List Token}
    {t : Token} (h : (placed p xs).filterMap (fun (q, x) => x.token? q) = before ++ t :: after) :
    ∃ (ys : List Lexeme) (y : Lexeme) (zs : List Lexeme),
      xs = ys ++ y :: zs ∧ y.kind = .token t.kind t.text ∧
      (placed p ys).filterMap (fun (q, x) => x.token? q) = before := by
  induction xs generalizing p before with
  | nil => cases before <;> cases h
  | cons x xs ih =>
      rw [placed] at h
      cases hx : x.token? p with
      | none =>
          rw [List.filterMap_cons_none (by simpa using hx)] at h
          obtain ⟨ys, y, zs, rfl, hy, hbefore⟩ := ih h
          refine ⟨x :: ys, y, zs, rfl, hy, ?_⟩
          rw [placed, List.filterMap_cons_none (by simpa using hx), hbefore]
      | some u =>
          rw [List.filterMap_cons_some (by simpa using hx)] at h
          cases before with
          | nil =>
              obtain ⟨rfl, -⟩ := List.cons.inj h
              refine ⟨[], x, xs, rfl, ?_, rfl⟩
              unfold token? at hx
              split at hx <;> cases hx
              assumption
          | cons b before =>
              obtain ⟨rfl, htail⟩ := List.cons.inj h
              obtain ⟨ys, y, zs, rfl, hy, hbefore⟩ := ih htail
              refine ⟨x :: ys, y, zs, rfl, hy, ?_⟩
              rw [placed, List.filterMap_cons_some (by simpa using hx), hbefore]

/-- A block that is not closed takes all that is left of the source. -/
theorem text_of_unterminatedBlock {armed : Bool} {c : Char} {cs : List Char} :
    (first armed c cs).kind = .dropped .unterminatedBlock →
      (first armed c cs).text = c :: cs := by
  fun_cases first armed c cs with
  | case1 => rintro ⟨⟩
  | case2 => fun_cases slash cs <;> rintro ⟨⟩
  | case3 _ _ hc => fun_cases brace armed cs <;> rintro ⟨⟩; rw [hc]
  | case4 => fun_cases atSign cs <;> rintro ⟨⟩
  | case5 => fun_cases string c cs <;> rintro ⟨⟩
  | case6 => rintro ⟨⟩
  | case7 => fun_cases number c cs <;> rintro ⟨⟩
  | case8 => rintro ⟨⟩
  | case9 => rintro ⟨⟩

/-- Nothing comes after a block that is not closed. -/
theorem eq_nil_of_unterminatedBlock {armed : Bool} {cs : List Char} {before after : List Lexeme}
    {x : Lexeme} (h : split armed cs = before ++ x :: after)
    (hkind : x.kind = .dropped .unterminatedBlock) : after = [] := by
  obtain ⟨armed', c, ds, -, rfl, hrest⟩ := exists_first_of_split h
  have hrest : after.flatMap text = [] := by
    simpa [text_of_unterminatedBlock hkind] using hrest
  cases after with
  | nil => rfl
  | cons y after =>
      rw [List.append_cons] at h
      obtain ⟨armed', c, ds, -, rfl, -⟩ := exists_first_of_split h
      exact absurd (List.append_eq_nil_iff.mp hrest).1 (text_ne_nil armed' c ds)

end Lexeme

/-- The message of an unclosed block is that of no other problem. -/
theorem LexProblem.message_eq_iff {e : LexProblem} :
    e.message = "Unterminated json type block" ↔ e = .unterminatedBlock := by
  -- a message with a text in it is told apart by its first three characters
  have apart {fixed text last : String} (hlength : 3 ≤ fixed.toList.length)
      (hfirst : fixed.toList.take 3 ≠ ['U', 'n', 't']) :
      fixed ++ text ++ last ≠ "Unterminated json type block" := by
    intro h
    have h := congrArg (fun m => m.toList.take 3) h
    rw [String.toList_append, String.toList_append, List.append_assoc,
      List.take_append_of_le_length hlength] at h
    exact hfirst h
  cases e with
  | unterminatedComment => decide
  | unterminatedString => decide
  | unterminatedBlock => decide
  | unknownBlock name => exact iff_of_false (apart (by decide) (by decide)) nofun
  | malformedNumber text => exact iff_of_false (apart (by decide) (by decide)) nofun
  | unexpected c => exact iff_of_false (apart (by decide) (by decide)) nofun

namespace Lexeme

/-- A fault is that of a lexeme that was dropped. -/
theorem exists_of_mem_faults {p : Position} {xs : List Lexeme} {e : LexFault}
    (h : e ∈ (placed p xs).filterMap fun (q, x) => x.fault? q) :
    ∃ x ∈ xs, x.kind = .dropped e.problem := by
  rw [← filterMap_fault?_spans 0] at h
  obtain ⟨s, hs, hfault⟩ := List.mem_filterMap.mp h
  obtain ⟨before, x, after, rfl, hspan⟩ := exists_of_mem_spans hs
  refine ⟨x, by simp, ?_⟩
  unfold span? at hspan
  split at hspan <;> cases hspan <;> cases hfault
  assumption

/-- **One finding** is made of a block that is not closed. -/
theorem findings_of_unterminatedBlock {source : String} {before after : List Lexeme} {x : Lexeme}
    (h : split false source.toList = before ++ x :: after)
    (hkind : x.kind = .dropped .unterminatedBlock) :
    ((Token.scan source).faults.map LexFault.diagnostic).filter
        (·.message = "Unterminated json type block") =
      [⟨.lexical, "Unterminated json type block", placeAfter source before⟩] := by
  obtain rfl := eq_nil_of_unterminatedBlock h hkind
  have hfaults : (Token.scan source).faults =
      ((placed .start before).filterMap fun (q, y) => y.fault? q) ++
        [⟨.unterminatedBlock, placeAfter source before⟩] := by
    rw [placeAfter_eq h]
    change ((placed .start (split false source.toList)).filterMap fun (q, y) => y.fault? q) = _
    rw [h, placed_append, List.filterMap_append]
    congr 1
    simp [placed, fault?, hkind]
  have hbefore : ∀ e ∈ (placed .start before).filterMap fun (q, y) => y.fault? q,
      e.problem ≠ .unterminatedBlock := fun e he hproblem => by
    obtain ⟨y, hy, hykind⟩ := exists_of_mem_faults he
    obtain ⟨earlier, later, rfl⟩ := List.append_of_mem hy
    rw [List.append_assoc, List.cons_append] at h
    simpa using eq_nil_of_unterminatedBlock h (hproblem ▸ hykind)
  rw [hfaults, List.map_append, List.filter_append, List.filter_eq_nil_iff.mpr]
  · rfl
  · intro d hd
    obtain ⟨e, he, rfl⟩ := List.mem_map.mp hd
    simpa [LexFault.diagnostic, LexProblem.message_eq_iff] using hbefore e he

/-! ### Opening braces -/

/-- What becomes of an opening brace that begins a lexeme, with the lexemes before it and after it:
after `json` a block, or the rest of the source if nothing closes it, and a brace otherwise. -/
structure Opens (source : String) (before : List Lexeme) (x : Lexeme) (after : List Lexeme) :
    Prop where
  plain : ¬ AfterJson before →
    x = ⟨.token .openBrace "\x7b", ['{']⟩ ∧
      ⟨.openBrace, "\x7b", placeAfter source before⟩ ∈ (Token.scan source).tokens
  block : AfterJson before → ∀ block, IsBlock block (x.text ++ after.flatMap text) →
    x = ⟨.token .rawObject (String.ofList block), block⟩ ∧
      ⟨.rawObject, String.ofList block, placeAfter source before⟩ ∈ (Token.scan source).tokens
  unclosed : AfterJson before → (∀ block, ¬ IsBlock block (x.text ++ after.flatMap text)) →
    x.kind = .dropped .unterminatedBlock ∧ after = [] ∧
      ((Token.scan source).faults.map LexFault.diagnostic).filter
          (·.message = "Unterminated json type block") =
        [⟨.lexical, "Unterminated json type block", placeAfter source before⟩]

/-- **An opening brace** at the front of a lexeme opens what it has to. -/
theorem opens_of_split {source : String} {before after : List Lexeme} {x : Lexeme}
    (h : split false source.toList = before ++ x :: after) (hbrace : x.text.head? = some '{') :
    x.Opens source before after := by
  obtain ⟨armed, c, cs, harmed, hx, hrest⟩ := exists_first_afterJson h
  obtain rfl : c = '{' := by
    rw [hx, head?_first] at hbrace
    exact Option.some.inj hbrace
  rw [first_brace, brace] at hx
  constructor
  · intro hafter
    rw [if_neg (hafter ∘ harmed.mp)] at hx
    exact ⟨hx, mem_tokens_of_split h (by rw [hx])⟩
  · intro hafter block hblock
    rw [if_pos (harmed.mpr hafter)] at hx
    rw [hrest] at hblock
    cases htail : blockTail 1 cs with
    | none => exact absurd hblock (not_isBlock_of_blockTail htail block)
    | some tail =>
        rw [htail] at hx
        obtain rfl := hblock.unique (isBlock_of_blockTail htail)
        exact ⟨hx, mem_tokens_of_split h (by rw [hx])⟩
  · intro hafter hnone
    rw [if_pos (harmed.mpr hafter)] at hx
    rw [hrest] at hnone
    cases htail : blockTail 1 cs with
    | some tail => exact absurd (isBlock_of_blockTail htail) (hnone _)
    | none =>
        rw [htail] at hx
        have hkind : x.kind = .dropped .unterminatedBlock := by rw [hx]
        exact ⟨hkind, eq_nil_of_unterminatedBlock h hkind, findings_of_unterminatedBlock h hkind⟩

end Lexeme

namespace Token

/-- Going back over tokens, and over square brackets, one comes to the word `json`. -/
def AfterJson (before : List Token) : Prop :=
  ∃ (earlier : List Token) (json : Token) (between : List Token),
    before = earlier ++ json :: between ∧ json.kind = .jsonType ∧
      ∀ t ∈ between, t.kind = .openBracket ∨ t.kind = .closeBracket

/-- What stands before a brace among the lexemes stands before it among the tokens. -/
theorem afterJson_of_lexemes {p : Position} {before : List Lexeme}
    (h : Lexeme.AfterJson before) :
    AfterJson ((Lexeme.placed p before).filterMap fun (q, x) => x.token? q) := by
  obtain ⟨earlier, json, between, rfl, hjson, hbetween⟩ := h
  rw [Lexeme.placed_append, Lexeme.placed, List.filterMap_append,
    List.filterMap_cons_some (b := ⟨.jsonType, "json", p.after (earlier.flatMap Lexeme.text)⟩)
      (by simp [Lexeme.token?, hjson])]
  refine ⟨_, _, _, rfl, rfl, fun t ht => ?_⟩
  obtain ⟨before, after, hsplit⟩ := List.append_of_mem ht
  obtain ⟨ys, x, zs, rfl, hx, -⟩ := Lexeme.exists_split_of_tokens hsplit
  rcases hbetween x (by simp) with hpassed | hpassed | hpassed <;> rw [hx] at hpassed
  · cases hpassed
  · exact .inl (LexemeKind.token.inj hpassed).1
  · exact .inr (LexemeKind.token.inj hpassed).1

/-- A raw block comes after `json`, over brackets alone. -/
theorem afterJson_of_rawObject {source : String} {before after : List Token} {t : Token}
    (h : (scan source).tokens = before ++ t :: after) (hkind : t.kind = .rawObject) :
    AfterJson before := by
  -- the end of the input is no block, so the token is one of a lexeme
  rcases after.eq_nil_or_concat' with rfl | ⟨after, stop, rfl⟩
  · obtain ⟨-, hstop⟩ := List.append_inj' h rfl
    rw [← (List.cons.inj hstop).1] at hkind
    cases hkind
  · rw [← List.cons_append, ← List.append_assoc] at h
    obtain ⟨htokens, -⟩ := List.append_inj' h rfl
    obtain ⟨ys, x, zs, hsplit, hx, rfl⟩ := Lexeme.exists_split_of_tokens htokens
    obtain ⟨armed, c, cs, harmed, rfl, -⟩ := Lexeme.exists_first_afterJson hsplit
    exact afterJson_of_lexemes (harmed.mp ((Lexeme.first_bears hx).block hkind))

/-- **Blocks begin after `json`.**  The lexemes of a source put together are the source, so every
opening brace of it stands in a string or a comment, inside a block, or at the front of a lexeme.
There it begins a block exactly if the lexemes before it, blanks, comments and square brackets at
their end apart, end in the word `json`, and the block ends with the first brace that leaves as many
closed as opened.  So a token that is a block comes after `json`, with nothing but square brackets
between them. -/
theorem scan_openBraces (source : String) :
    (Lexeme.split false source.toList).flatMap Lexeme.text = source.toList ∧
    (∀ before x after, Lexeme.split false source.toList = before ++ x :: after →
      '{' ∈ x.text → ¬ x.IsStringOrComment →
        x.text.head? = some '{' ∧ x.Opens source before after) ∧
    ∀ before t after, (scan source).tokens = before ++ t :: after → t.kind = .rawObject →
      AfterJson before := by
  refine ⟨Lexeme.split_flatMap false source.toList, fun before x after h hmem hplain => ?_,
    fun before t after => afterJson_of_rawObject⟩
  have hbrace : x.text.head? = some '{' := by
    obtain ⟨armed, c, cs, -, rfl, -⟩ := Lexeme.exists_first_of_split h
    by_cases hc : c = '{'
    · rw [Lexeme.head?_first, hc]
    · exact absurd (Lexeme.isStringOrComment_of_brace_mem hc hmem) hplain
  exact ⟨hbrace, Lexeme.opens_of_split h hbrace⟩

/-- A block after `json[]`, a brace after the block, and one after `json` that nothing closes. -/
def mixedBraces : String := "json[] \x7ba\x7b\x7d\x7d\x7bjson\x7b"

/-- The braces of the mixed source open a raw block, a body, and a block that is not closed. -/
theorem mixedBraces_openBraces :
    ⟨.rawObject, "\x7ba\x7b\x7d\x7d", ⟨1, 8⟩⟩ ∈ (scan mixedBraces).tokens ∧
    ⟨.openBrace, "\x7b", ⟨1, 13⟩⟩ ∈ (scan mixedBraces).tokens ∧
    ((scan mixedBraces).faults.map LexFault.diagnostic).filter
        (·.message = "Unterminated json type block") =
      [⟨.lexical, "Unterminated json type block", ⟨1, 18⟩⟩] := by
  have hcut : Lexeme.split false mixedBraces.toList =
      [⟨.token .jsonType "json", ['j', 's', 'o', 'n']⟩, ⟨.token .openBracket "[", ['[']⟩,
        ⟨.token .closeBracket "]", [']']⟩, ⟨.blank, [' ']⟩,
        ⟨.token .rawObject "\x7ba\x7b\x7d\x7d", ['{', 'a', '{', '}', '}']⟩,
        ⟨.token .openBrace "\x7b", ['{']⟩, ⟨.token .jsonType "json", ['j', 's', 'o', 'n']⟩,
        ⟨.dropped .unterminatedBlock, ['{']⟩] := by
    decide +kernel
  obtain ⟨-, hbraces, -⟩ := scan_openBraces mixedBraces
  obtain ⟨-, hblock⟩ := hbraces [_, _, _, _] _ [_, _, _] hcut (by decide)
    (by simp [Lexeme.IsStringOrComment])
  obtain ⟨-, hplain⟩ := hbraces [_, _, _, _, _] _ [_, _] hcut (by decide)
    (by simp [Lexeme.IsStringOrComment])
  obtain ⟨-, hunclosed⟩ := hbraces [_, _, _, _, _, _, _] _ [] hcut (by decide)
    (by simp [Lexeme.IsStringOrComment])
  refine ⟨(hblock.block ⟨[], _, [_, _, _], rfl, rfl, by simp [Lexeme.IsPassed]⟩
      ['{', 'a', '{', '}', '}'] (Lexeme.isBlock_of_blockTail rfl)).2,
    (hplain.plain fun h => ?_).2,
    (hunclosed.unclosed ⟨[_, _, _, _, _, _], _, [], rfl, rfl, by simp⟩
      (Lexeme.not_isBlock_of_blockTail rfl)).2.2⟩
  simpa [Lexeme.IsPassed] using (@Lexeme.afterJson_concat [_, _, _, _] _).mp h

end Token

end Schemata
