import Schemata.Proofs.Number.Numerals
import Schemata.Proofs.Token.Spans

/-!
# Proofs — tokens — words in a layout

A source that is made of words (`Token.Word`) with blanks and comments between them
(`Token.Word.LaidOut`) is cut into those words again, whatever the layout.  What a brace begins
depends on the words before it, so a row of words is judged from the front (`Token.Word.Steady`).

* `Token.Word.scan_of_laidOut` — the tokens are the words, and nothing is dropped.
-/

namespace Schemata

open Text

/-- A word, a sign or a literal of a source: a token without its place. -/
structure Token.Word where
  kind : TokenKind
  text : String
  deriving DecidableEq, Repr

def Token.word (t : Token) : Token.Word := ⟨t.kind, t.text⟩

/-- A letter or an underscore, and letters, digits, underscores and hyphens after it. -/
def Lexeme.IsWord (text : String) : Prop :=
  ∃ c cs, text.toList = c :: cs ∧ isWordStart c = true ∧ ∀ d ∈ cs, isWordPart d = true

/-- Blanks and comments, before a text. -/
inductive IsGap : List Char → List Char → Prop
  | nil {rest : List Char} : IsGap [] rest
  | blank {c : Char} {gap rest : List Char} (blank : isBlank c = true) (tail : IsGap gap rest) :
      IsGap (c :: gap) rest
  | comment {text gap rest : List Char} (comment : IsComment text (gap ++ rest))
      (tail : IsGap gap rest) : IsGap (text ++ gap) rest

namespace Token.Word

/-- How a word is written: a string literal in double quotes, anything else as it is. -/
def spelled (w : Word) : List Char :=
  if w.kind = .stringLiteral then '"' :: (w.text.toList ++ ['"']) else w.text.toList

/-- Whether a brace after the word begins a raw block, if one before it did when `armed`. -/
def arms (armed : Bool) (w : Word) : Bool :=
  match w.kind with
  | .jsonType => true
  | .openBracket => armed
  | .closeBracket => armed
  | _ => false

/-- The words of the language, where a brace begins a raw block exactly if `armed`. -/
inductive Fits (armed : Bool) : Word → Prop
  | name {text : String} (word : Lexeme.IsWord text) : Fits armed ⟨.ofWord text, text⟩
  | sign {c : Char} {kind : TokenKind} (sign : TokenKind.ofSign? c = some kind) :
      Fits armed ⟨kind, String.singleton c⟩
  | atSign : Fits armed ⟨.atSign, "@"⟩
  | composite {name : String} (block : name ∈ compositeBlocks) :
      Fits armed ⟨.composite, "@@" ++ name⟩
  | string {text : String} (plain : ∀ c ∈ text.toList, c ≠ '"' ∧ c ≠ '\\') :
      Fits armed ⟨.stringLiteral, text⟩
  | integer {ds : List Char} (some : ds ≠ []) (digits : IsDigits ds) :
      Fits armed ⟨.numberLiteral, String.ofList ds⟩
  | decimal {ws ps : List Char} (some : ws ≠ []) (digits : IsDigits ws) (some' : ps ≠ [])
      (digits' : IsDigits ps) : Fits armed ⟨.numberLiteral, String.ofList (ws ++ '.' :: ps)⟩
  | openBrace (unarmed : armed = false) : Fits armed ⟨.openBrace, "\x7b"⟩
  | rawObject {text : String} {tail : List Char} (braced : text.toList = '{' :: tail)
      (balanced : ∀ rest, Lexeme.blockTail 1 (tail ++ rest) = some tail) (inBlock : armed = true) :
      Fits armed ⟨.rawObject, text⟩

/-- A row of words, each of the language where it stands. -/
inductive Steady : Bool → List Word → Prop
  | nil {armed : Bool} : Steady armed []
  | cons {armed : Bool} {w : Word} {ws : List Word} (fits : w.Fits armed)
      (rest : Steady (w.arms armed) ws) : Steady armed (w :: ws)

/-- Two characters that would be read as parts of one word, or as one sign. -/
def Clash (c d : Char) : Prop :=
  (Lexeme.isWordPart c = true ∧ Lexeme.isWordPart d = true) ∨ (c = '@' ∧ d = '@')

/-- The words laid out with blanks and comments between them, at least one where two words meet. -/
abbrev LaidOut : List Word → List Char → Prop := Laid spelled IsGap Clash

end Token.Word

/-! ### Gaps -/

namespace Lexeme

variable {armed : Bool} {c : Char} {cs ds rest : List Char}

/-- What the lexemes of a source are, blanks and comments apart. -/
def kinds (armed : Bool) (cs : List Char) : List LexemeKind :=
  ((split armed cs).map Lexeme.kind).filter (· ≠ .blank)

/-- A text is cut at its first lexeme, and then on. -/
theorem split_of_first {x : Lexeme} (h : first armed c ds = x) (htext : x.text ++ rest = c :: ds) :
    split armed (c :: ds) = x :: split (x.arms armed) rest := by
  subst h
  have hne := text_ne_nil armed c ds
  have hrest : ds.drop ((first armed c ds).text.length - 1) = rest := by
    have hdrop := congrArg (List.drop (first armed c ds).text.length) htext
    obtain ⟨e, es, he⟩ := List.exists_cons_of_ne_nil hne
    rw [List.drop_left, he, List.length_cons, List.drop_succ_cons] at hdrop
    rw [he, hdrop, List.length_cons, Nat.add_sub_cancel]
  rw [split, hrest]

theorem kinds_of_blank {x : Lexeme} (h : first armed c ds = x) (htext : x.text ++ rest = c :: ds)
    (hkind : x.kind = .blank) : kinds armed (c :: ds) = kinds armed rest := by
  unfold kinds
  rw [split_of_first h htext, List.map_cons, hkind, List.filter_cons_of_neg (by simp), arms, hkind]

theorem kinds_of_token {x : Lexeme} {kind : TokenKind} {value : String}
    (h : first armed c ds = x) (htext : x.text ++ rest = c :: ds)
    (hkind : x.kind = .token kind value) :
    kinds armed (c :: ds) = .token kind value :: kinds (x.arms armed) rest := by
  unfold kinds
  rw [split_of_first h htext, List.map_cons, hkind, List.filter_cons_of_pos (by simp)]

/-- A blank before a source does not count. -/
theorem kinds_cons_of_isBlank (hc : isBlank c = true) (cs : List Char) :
    kinds armed (c :: cs) = kinds armed cs := by
  -- the blanks at the front are one lexeme, however many they are
  have hall : ∀ {d : Char} (ds : List Char), isBlank d = true →
      kinds armed (d :: ds) = kinds armed (ds.dropWhile isBlank) := fun ds hd =>
    kinds_of_blank (x := ⟨.blank, _ :: ds.takeWhile isBlank⟩) (by rw [first, if_pos hd])
      (congrArg (List.cons _) List.takeWhile_append_dropWhile) rfl
  rw [hall cs hc]
  cases cs with
  | nil => rfl
  | cons d ds =>
      rw [List.dropWhile_cons]
      split
      next hd => rw [hall ds hd]
      next => rfl

/-- A block comment ends where it is closed first. -/
theorem commentTail_of_first {body : List Char} (h : ¬ ['*', '/'] <:+: body) (rest : List Char) :
    commentTail (body ++ ['*', '/'] ++ rest) = some (body ++ ['*', '/']) := by
  induction body with
  | nil => rfl
  | cons c body ih =>
      have htail := ih fun hinfix => h (List.infix_cons hinfix)
      rw [List.cons_append, List.cons_append, commentTail, htail]
      · rfl
      · rintro ds rfl hds
        cases body with
        | nil => cases hds
        | cons d body =>
            obtain ⟨rfl, -⟩ := List.cons.inj hds
            exact h (List.prefix_append ['*', '/'] body).isInfix

/-- A comment makes no difference. -/
theorem kinds_append_of_isComment {text : List Char} (h : IsComment text rest) :
    kinds armed (text ++ rest) = kinds armed rest := by
  cases h with
  | @line body rest inLine ends =>
      have hbody : ∀ c ∈ body, (c != '\n') = true := fun c hc =>
        bne_iff_ne.mpr fun hnewline => inLine (hnewline ▸ hc)
      have htake : (body ++ rest).takeWhile (· != '\n') = body := by
        rw [List.takeWhile_append_of_pos hbody]
        cases rest with
        | nil => rw [List.takeWhile_nil, List.append_nil]
        | cons c rest => rw [List.takeWhile_cons, ends c rfl]; simp
      have hfirst : first armed '/' ('/' :: (body ++ rest)) = ⟨.blank, '/' :: '/' :: body⟩ := by
        rw [first, if_neg (by decide), if_pos rfl, slash, htake]
      exact kinds_of_blank hfirst rfl rfl
  | @block body rest closed =>
      have hfirst : first armed '/' ('*' :: (body ++ ['*', '/'] ++ rest)) =
          ⟨.blank, '/' :: '*' :: (body ++ ['*', '/'])⟩ := by
        rw [first, if_neg (by decide), if_pos rfl, slash, commentTail_of_first closed]
      exact kinds_of_blank hfirst rfl rfl

theorem kinds_append_of_isGap {gap : List Char} (h : IsGap gap rest) :
    kinds armed (gap ++ rest) = kinds armed rest := by
  induction h with
  | nil => rfl
  | blank blank _ ih => rw [List.cons_append, kinds_cons_of_isBlank blank, ih]
  | comment comment _ ih => rw [List.append_assoc, kinds_append_of_isComment comment, ih]

/-- A gap begins with a blank or a slash. -/
theorem head_of_isGap {gap : List Char} (h : IsGap gap rest) :
    ∀ c ∈ gap.head?, isBlank c = true ∨ c = '/' := by
  induction h with
  | nil => rintro c ⟨⟩
  | blank blank =>
      rintro c ⟨⟩
      exact .inl blank
  | comment comment =>
      cases comment <;>
      · rintro c ⟨⟩
        exact .inr rfl

/-! ### Words -/

/-- A letter or a digit begins no comment, no literal in quotes, no decorator and no block. -/
theorem first_of_alphanum (h : isWordStart c = true ∨ c.isDigit = true) :
    first armed c cs = if isWordStart c then word c cs else number c cs := by
  have hbounds : (48 ≤ c.toNat ∧ c.toNat ≤ 57) ∨ 65 ≤ c.toNat ∧ c.toNat ≤ 122 :=
    h.symm.imp isDigit_iff.mp bounds_of_letter
  have hne : ∀ d : Char, (d.toNat < 48 ∨ d.toNat = 64 ∨ 122 < d.toNat) → c ≠ d := by
    rintro d hd rfl
    omega
  have hblank : isBlank c = false := isBlank_of_visible (by omega) (by omega)
  have hquote : (decide (c = '"') || decide (c = '\'')) = false := by
    simp [hne '"' (by decide), hne '\'' (by decide)]
  rw [first, hblank, if_neg (by decide), if_neg (hne _ (by decide)), if_neg (hne _ (by decide)),
    if_neg (hne _ (by decide)), hquote, if_neg (by decide)]
  split
  next => rfl
  next hstart =>
      rw [if_pos (isDigit_of_isDecimal (isDecimal_of_digit (h.resolve_left hstart)))]

theorem first_of_sign {kind : TokenKind} (h : TokenKind.ofSign? c = some kind) :
    first armed c cs = ⟨.token kind (String.singleton c), [c]⟩ := by
  unfold TokenKind.ofSign? at h
  split at h <;> cases h <;> rfl

theorem first_at : first armed '@' cs = atSign cs := by
  rw [first, if_neg (by decide), if_neg (by decide), if_neg (by decide), if_pos rfl]

theorem first_quote : first armed '"' cs = string '"' cs := by
  rw [first, if_neg (by decide), if_neg (by decide), if_neg (by decide), if_neg (by decide),
    if_pos (by decide)]

theorem first_brace : first armed '{' cs = brace armed cs := by
  rw [first, if_neg (by decide), if_neg (by decide), if_pos rfl]

/-- No digit begins a word. -/
theorem isWordStart_of_digit (h : c.isDigit = true) : isWordStart c = false := by
  rw [← Bool.not_eq_true]
  intro hstart
  have := bounds_of_letter hstart
  have := isDigit_iff.mp h
  omega

theorem isWordPart_of_isWordStart (h : isWordStart c = true) : isWordPart c = true := by
  unfold isWordStart at h
  unfold isWordPart Char.isAlphanum
  simp only [Bool.or_eq_true] at h ⊢
  exact .inl (h.imp_left .inl)

theorem isWordPart_of_digit (h : c.isDigit = true) : isWordPart c = true := by
  simp [isWordPart, Char.isAlphanum, h]

theorem isDigit_of_digits (h : IsDigits cs) : ∀ c ∈ cs, Text.isDigit c = true := fun c hc =>
  isDigit_of_isDecimal (isDecimal_of_digit (h c hc))

/-- A word is read to its end. -/
theorem word_append (h : ∀ d ∈ cs, isWordPart d = true)
    (hrest : ∀ d ∈ rest.head?, isWordPart d = false) :
    word c (cs ++ rest) =
      ⟨.token (.ofWord (String.ofList (c :: cs))) (String.ofList (c :: cs)), c :: cs⟩ := by
  unfold word
  rw [(span_append h hrest).1]

/-- An at sign is read by itself where no other follows. -/
theorem atSign_of_head (hrest : ∀ d ∈ rest.head?, d ≠ '@') :
    atSign rest = ⟨.token .atSign "@", ['@']⟩ := by
  unfold atSign
  split
  next => exact absurd rfl (hrest '@' rfl)
  next => rfl

/-- The name of a block is read behind two at signs. -/
theorem atSign_append {name : String} (h : name ∈ compositeBlocks)
    (hparts : ∀ d ∈ name.toList, isWordPart d = true)
    (hrest : ∀ d ∈ rest.head?, isWordPart d = false) :
    atSign ('@' :: (name.toList ++ rest)) =
      ⟨.token .composite ("@@" ++ name), '@' :: '@' :: name.toList⟩ := by
  have htext : String.ofList ('@' :: '@' :: name.toList) = "@@" ++ name :=
    String.toList_injective (by rw [String.toList_ofList, String.toList_append]; rfl)
  rw [atSign, (span_append hparts hrest).1, String.ofList_toList,
    if_pos (List.contains_iff_mem.mpr h), htext]

/-- A string is read to its quote. -/
theorem string_append {quote : Char} (hquote : quote ≠ '\\')
    (h : ∀ c ∈ cs, c ≠ quote ∧ c ≠ '\\') :
    string quote (cs ++ quote :: rest) =
      ⟨.token .stringLiteral (String.ofList cs), quote :: cs ++ [quote]⟩ := by
  have hbody : stringBody quote (cs ++ quote :: rest) = some cs := by
    induction cs with
    | nil =>
        rw [List.nil_append, stringBody, if_pos rfl]
        exact fun _ _ h => absurd h hquote
    | cons c cs ih =>
        obtain ⟨⟨hne, hslash⟩, hcs⟩ := List.forall_mem_cons.mp h
        rw [List.cons_append, stringBody, if_neg hne, ih hcs]
        · rfl
        · exact fun _ _ h => absurd h hslash
  unfold string
  rw [hbody]

/-- An integer is read to its end. -/
theorem number_append (h : IsDigits cs)
    (hrest : ∀ d ∈ rest.head?, d ≠ '.' ∧ Text.isDigit d = false) :
    number c (cs ++ rest) = ⟨.token .numberLiteral (String.ofList (c :: cs)), c :: cs⟩ := by
  obtain ⟨htake, hdrop⟩ := span_append (isDigit_of_digits h) fun d hd => (hrest d hd).2
  unfold number
  rw [htake, hdrop]
  split
  next => exact absurd rfl (hrest '.' rfl).1
  next => rfl

/-- A decimal number is read to its end. -/
theorem number_append_point {ps : List Char} (h : IsDigits cs) (hne : ps ≠ []) (hp : IsDigits ps)
    (hrest : ∀ d ∈ rest.head?, Text.isDigit d = false) :
    number c (cs ++ '.' :: (ps ++ rest)) =
      ⟨.token .numberLiteral (String.ofList (c :: cs ++ '.' :: ps)), c :: cs ++ '.' :: ps⟩ := by
  obtain ⟨hwhole, hpoint⟩ := @span_append Text.isDigit cs ('.' :: (ps ++ rest))
    (isDigit_of_digits h) (by rintro d ⟨⟩; decide)
  unfold number
  rw [hwhole, hpoint]
  split
  next heq =>
      cases heq
      rw [(span_append (isDigit_of_digits hp) hrest).1, if_neg (by simpa using hne)]
  next hpoint => exact absurd rfl (hpoint _)

end Lexeme

namespace Token.Word

open Lexeme

variable {armed : Bool} {w : Word} {rest : List Char}

theorem spelled_of_ne {kind : TokenKind} (h : kind ≠ .stringLiteral) (text : String) :
    spelled ⟨kind, text⟩ = text.toList := if_neg h

/-- What may come after a word: nothing that clashes with it, and nothing that a numeral goes on
with. -/
structure Ends (w : Word) (rest : List Char) : Prop where
  apart : ∀ c ∈ w.spelled.getLast?, ∀ d ∈ rest.head?, ¬ Clash c d
  noDigit : ∀ d ∈ rest.head?, d ≠ '.' ∧ (Text.isDigit d = true → isWordPart d = true)

/-- After a word that ends in a letter or a digit, no part of a word comes. -/
theorem Ends.isWordPart (h : w.Ends rest) {cs : List Char} (hne : cs ≠ [])
    (hspelled : cs <:+ w.spelled) (hparts : ∀ c ∈ cs, Lexeme.isWordPart c = true) :
    ∀ d ∈ rest.head?, Lexeme.isWordPart d = false := fun d hd => by
  have hlast : cs.getLast hne ∈ w.spelled.getLast? := by
    obtain ⟨before, hbefore⟩ := hspelled
    rw [← hbefore, List.getLast?_append_of_ne_nil before hne]
    exact List.getLast?_eq_some_getLast hne
  rw [← Bool.not_eq_true]
  exact fun hd' => h.apart _ hlast d hd (.inl ⟨hparts _ (List.getLast_mem hne), hd'⟩)

/-- Nor does a digit or a point after a numeral. -/
theorem Ends.isDigit (h : w.Ends rest) {cs : List Char} (hne : cs ≠ [])
    (hspelled : cs <:+ w.spelled) (hdigits : IsDigits cs) :
    ∀ d ∈ rest.head?, d ≠ '.' ∧ Text.isDigit d = false := fun d hd => by
  refine ⟨(h.noDigit d hd).1, Bool.eq_false_iff.mpr fun hd' => ?_⟩
  have := h.isWordPart hne hspelled (fun c hc => isWordPart_of_digit (hdigits c hc)) d hd
  rw [(h.noDigit d hd).2 hd'] at this
  cases this

/-- **The first lexeme** of a source that begins with a word is that word. -/
theorem first_of_fits (h : w.Fits armed) (hends : w.Ends rest) : ∃ c cs,
    w.spelled ++ rest = c :: cs ∧ first armed c cs = ⟨.token w.kind w.text, w.spelled⟩ := by
  cases h with
  | @name text isWord =>
      obtain ⟨c, cs, htext, hstart, hparts⟩ := isWord
      have hspelled : spelled ⟨.ofWord text, text⟩ = c :: cs := by
        rw [spelled_of_ne (ofWord_ne text).2.2.1, htext]
      have hrest := hends.isWordPart (List.cons_ne_nil c cs) ⟨[], hspelled.symm⟩
        (List.forall_mem_cons.mpr ⟨isWordPart_of_isWordStart hstart, hparts⟩)
      refine ⟨c, cs ++ rest, by rw [hspelled]; rfl, ?_⟩
      rw [first_of_alphanum (.inl hstart), if_pos hstart, word_append hparts hrest, hspelled,
        ← htext, String.ofList_toList]
  | @sign c kind sign =>
      have hspelled : spelled ⟨kind, String.singleton c⟩ = [c] := by
        rw [spelled_of_ne (ofSign?_ne sign).2.2.1, String.toList_singleton]
      exact ⟨c, rest, by rw [hspelled]; rfl, by rw [first_of_sign sign, hspelled]⟩
  | atSign =>
      exact ⟨'@', rest, rfl, first_at.trans (atSign_of_head fun d hd hd' =>
        hends.apart '@' rfl d hd (.inr ⟨rfl, hd'⟩))⟩
  | @composite name block =>
      have hall : ∀ n ∈ compositeBlocks, n.toList ≠ [] ∧ n.toList.all isWordPart = true := by decide
      obtain ⟨hne, hparts⟩ := hall name block
      have hparts := List.all_eq_true.mp hparts
      have hspelled : spelled ⟨.composite, "@@" ++ name⟩ = '@' :: '@' :: name.toList := by
        rw [spelled_of_ne (by decide), String.toList_append]
        rfl
      have hrest := hends.isWordPart hne ⟨['@', '@'], hspelled.symm⟩ hparts
      refine ⟨'@', '@' :: (name.toList ++ rest), by rw [hspelled]; rfl, ?_⟩
      rw [first_at, atSign_append block hparts hrest, hspelled]
  | @string text plain =>
      have hspelled : spelled ⟨.stringLiteral, text⟩ = '"' :: (text.toList ++ ['"']) := rfl
      refine ⟨'"', text.toList ++ '"' :: rest, by rw [hspelled]; simp, ?_⟩
      rw [first_quote, string_append (by decide) plain, String.ofList_toList, hspelled]
      rfl
  | @integer ds some digits =>
      have hspelled : spelled ⟨.numberLiteral, String.ofList ds⟩ = ds := by
        rw [spelled_of_ne (by decide), String.toList_ofList]
      have hrest := hends.isDigit some ⟨[], hspelled.symm⟩ digits
      obtain ⟨c, cs, rfl⟩ := List.exists_cons_of_ne_nil some
      obtain ⟨hc, hcs⟩ := List.forall_mem_cons.mp digits
      refine ⟨c, cs ++ rest, by rw [hspelled]; rfl, ?_⟩
      rw [first_of_alphanum (.inr hc), isWordStart_of_digit hc, if_neg (by decide), hspelled,
        number_append hcs hrest]
  | @decimal ws ps some digits some' digits' =>
      have hspelled : spelled ⟨.numberLiteral, String.ofList (ws ++ '.' :: ps)⟩ =
          ws ++ '.' :: ps := by
        rw [spelled_of_ne (by decide), String.toList_ofList]
      have hrest := hends.isDigit some' ⟨ws ++ ['.'], by rw [hspelled]; simp⟩ digits'
      obtain ⟨c, cs, rfl⟩ := List.exists_cons_of_ne_nil some
      obtain ⟨hc, hcs⟩ := List.forall_mem_cons.mp digits
      refine ⟨c, cs ++ '.' :: (ps ++ rest), by rw [hspelled]; simp, ?_⟩
      rw [first_of_alphanum (.inr hc), isWordStart_of_digit hc, if_neg (by decide), hspelled,
        number_append_point hcs some' digits' fun d hd => (hrest d hd).2]
  | openBrace unarmed =>
      subst unarmed
      exact ⟨'{', rest, rfl, first_brace⟩
  | @rawObject text tail braced balanced inBlock =>
      subst inBlock
      have hspelled : spelled ⟨.rawObject, text⟩ = '{' :: tail := by
        rw [spelled_of_ne (by decide), braced]
      refine ⟨'{', tail ++ rest, by rw [hspelled]; rfl, ?_⟩
      rw [first_brace, brace, if_pos rfl, balanced, hspelled]
      dsimp only
      rw [← braced, String.ofList_toList]

/-- A word is not empty. -/
theorem spelled_ne_nil (h : w.Fits armed) : w.spelled ≠ [] := by
  obtain ⟨c, cs, -, hfirst⟩ := @first_of_fits armed w [] h ⟨by simp, by simp⟩
  have := text_ne_nil armed c cs
  rwa [hfirst] at this

/-- A word begins with no point, and with no digit that is not a part of words. -/
theorem head_of_fits (h : w.Fits armed) :
    ∀ d ∈ w.spelled.head?, d ≠ '.' ∧ (Text.isDigit d = true → Lexeme.isWordPart d = true) := by
  have hdigit : ∀ c : Char, c.isDigit = true →
      c ≠ '.' ∧ (Text.isDigit c = true → Lexeme.isWordPart c = true) := fun c hc =>
    ⟨ne_of_digit hc (by decide), fun _ => isWordPart_of_digit hc⟩
  cases h with
  | @name text isWord =>
      obtain ⟨c, cs, htext, hstart, -⟩ := isWord
      rw [spelled_of_ne (ofWord_ne text).2.2.1, htext]
      rintro d ⟨⟩
      refine ⟨?_, fun _ => isWordPart_of_isWordStart hstart⟩
      rintro rfl
      exact absurd hstart (by decide)
  | @sign c kind sign =>
      rw [spelled_of_ne (ofSign?_ne sign).2.2.1, String.toList_singleton]
      rintro d ⟨⟩
      unfold TokenKind.ofSign? at sign
      split at sign <;> cases sign <;> decide
  | atSign => rintro d ⟨⟩; decide
  | composite =>
      rw [spelled_of_ne (by decide), String.toList_append]
      rintro d ⟨⟩
      decide
  | string => rintro d ⟨⟩; decide
  | @integer ds some digits =>
      rw [spelled_of_ne (by decide), String.toList_ofList]
      exact fun d hd => hdigit d (digits d (List.mem_of_mem_head? hd))
  | @decimal ws ps some digits =>
      rw [spelled_of_ne (by decide), String.toList_ofList, List.head?_append_of_ne_nil _ some]
      exact fun d hd => hdigit d (digits d (List.mem_of_mem_head? hd))
  | openBrace => rintro d ⟨⟩; decide
  | rawObject braced =>
      rw [spelled_of_ne (by decide), braced]
      rintro d ⟨⟩
      decide

/-! ### Rows of words -/

/-- Each of a row of words fits in some mode. -/
theorem Steady.exists_fits {ws : List Word} (h : Steady armed ws) :
    ∀ w ∈ ws, ∃ armed', w.Fits armed' := by
  induction h with
  | nil => exact fun w hw => absurd hw List.not_mem_nil
  | cons fits _ ih => exact List.forall_mem_cons.mpr ⟨⟨_, fits⟩, ih⟩

/-- Words that are of the language wherever they stand may come after a row of words. -/
theorem Steady.append {ws vs : List Word} (h : Steady armed ws) (h' : ∀ armed, Steady armed vs) :
    Steady armed (ws ++ vs) := by
  induction h with
  | nil => exact h' _
  | cons fits _ ih => exact .cons fits ih

/-- A blank between any two words is enough. -/
theorem laidOut_spaced (ws : List Word) : LaidOut ws (spaced spelled ws) := by
  refine Laid.laid_spaced (fun _ => .blank (by decide) .nil) (fun c h => ?_) ws
  rcases h with ⟨-, h⟩ | ⟨-, h⟩ <;> exact absurd h (by decide)

/-- What a row of words is laid out as begins with nothing that a numeral goes on with. -/
theorem head_of_laidOut {ws : List Word} (h : LaidOut ws rest) (hsteady : Steady armed ws) :
    ∀ d ∈ rest.head?, d ≠ '.' ∧ (Text.isDigit d = true → Lexeme.isWordPart d = true) := by
  intro d hd
  have hne : ∀ w ∈ ws, w.spelled ≠ [] := fun w hw =>
    (hsteady.exists_fits w hw).elim fun _ => spelled_ne_nil
  obtain ⟨gap, rest', hgap⟩ | ⟨w, hw, hd⟩ := h.head_cases hne hd
  · rcases head_of_isGap hgap d rfl with hblank | rfl
    · refine ⟨?_, fun hdigit => ?_⟩
      · rintro rfl
        exact absurd hblank (by decide)
      · rw [isBlank_of_isDigit hdigit] at hblank
        cases hblank
    · decide
  · cases hsteady with
    | nil => cases hw
    | cons fits =>
        cases hw
        exact head_of_fits fits d hd

theorem arms_token (armed : Bool) (w : Word) (cs : List Char) :
    Lexeme.arms armed ⟨.token w.kind w.text, cs⟩ = w.arms armed := by
  unfold Lexeme.arms Word.arms
  cases w.kind <;> rfl

/-- **The lexemes** of words in a layout are the words, blanks and comments apart. -/
theorem kinds_of_laidOut {ws : List Word} {cs : List Char} (h : LaidOut ws cs)
    (hsteady : Steady armed ws) : kinds armed cs = ws.map fun w => .token w.kind w.text := by
  induction h generalizing armed with
  | @nil gap ends =>
      rw [← List.append_nil gap, kinds_append_of_isGap ends]
      unfold kinds
      rw [split]
      rfl
  | @cons w ws gap cs between apart rest ih =>
      obtain _ | ⟨fits, hrest⟩ := hsteady
      obtain ⟨c, ds, htext, hfirst⟩ := first_of_fits fits ⟨apart, head_of_laidOut rest hrest⟩
      rw [kinds_append_of_isGap between, htext, kinds_of_token hfirst htext rfl, arms_token,
        ih hrest, List.map_cons]

end Token.Word

namespace Lexeme

/-- Where every lexeme but the blank ones is a token, the tokens are these, and no lexeme is a
fault. -/
theorem tokens_of_kinds {xs : List Lexeme} {ws : List Token.Word}
    (h : (xs.map Lexeme.kind).filter (· ≠ .blank) = ws.map fun w => .token w.kind w.text)
    (p : Position) :
    ((placed p xs).filterMap fun (q, x) => x.token? q).map Token.word = ws ∧
      ((placed p xs).filterMap fun (q, x) => x.fault? q) = [] := by
  induction xs generalizing ws p with
  | nil =>
      obtain rfl := List.map_eq_nil_iff.mp h.symm
      exact ⟨rfl, rfl⟩
  | cons x xs ih =>
      cases hkind : x.kind with
      | blank =>
          rw [List.map_cons, hkind, List.filter_cons_of_neg (by simp)] at h
          simpa [placed, token?, fault?, hkind] using ih h _
      | token kind value =>
          rw [List.map_cons, hkind, List.filter_cons_of_pos (by simp)] at h
          obtain ⟨w, ws, rfl, hw, hws⟩ := List.map_eq_cons_iff.mp h.symm
          cases hw
          simpa [placed, token?, fault?, hkind, Token.word] using ih hws.symm _
      | dropped problem =>
          rw [List.map_cons, hkind, List.filter_cons_of_pos (by simp)] at h
          obtain ⟨w, ws, -, hw, -⟩ := List.map_eq_cons_iff.mp h.symm
          cases hw

end Lexeme

/-- **The tokens** of words in a layout are the words, and nothing is dropped. -/
theorem Token.Word.scan_of_laidOut {ws : List Token.Word} {source : String}
    (h : LaidOut ws source.toList) (hsteady : Steady false ws) :
    ∃ (body : List Token) (stop : Token),
      (Token.scan source).tokens = body ++ [stop] ∧ stop.kind = .endOfInput ∧
      (∀ t ∈ body, t.kind ≠ .endOfInput) ∧ body.map Token.word = ws ∧
      (Token.scan source).faults = [] := by
  obtain ⟨htokens, hfaults⟩ := Lexeme.tokens_of_kinds (kinds_of_laidOut h hsteady) .start
  obtain ⟨body, stop, hscan, hstop, hbody⟩ := Token.exists_body source
  refine ⟨body, stop, hscan, hstop, fun t ht => (hbody t ht).1, ?_, hfaults⟩
  rw [← htokens]
  exact congrArg _ (List.append_inj_left' hscan.symm rfl)

end Schemata
