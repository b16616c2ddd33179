import Schemata.Catalog.NativeDefault
import Schemata.Proofs.Number.Reading

/-!
# Proofs — catalogs — reading a default back

A default as Postgres reports it, read as the default that was declared: a number that is written
with its digits (`postgresDefault_int`, `postgresDefault_float`), a truth value, a string with its
type after it (`postgresDefault_string`), and the calls (`postgresDefault_nextval` and the closed
ones).  A number with an exponent is not read back as a number, but it is read as something
(`postgresDefault_float_ok`).
-/

namespace Schemata

-- Powers of whole numbers are the ones of the core library, whichever algebra is imported.
attribute [local instance (high)] instPowNat

open Text Numeral NativeDefault

/-! ### What an expression begins with -/

theorem lowerFrom_cons {c : Char} (h : c.toNat < 128) (inWord : Bool) (cs : List Char) :
    ∃ rest, lowerFrom inWord (c :: cs) = c.toLower :: rest := by
  unfold lowerFrom
  rw [if_neg (by simp; omega), lowerChars_of_ascii h]
  exact ⟨_, rfl⟩

theorem toList_strip (s : String) : (strip s).toList = stripRight (stripLeft s.toList) := by
  unfold strip
  rw [String.toList_ofList]

theorem toList_lower (s : String) : (lower s).toList = lowerFrom false s.toList := by
  unfold lower
  rw [String.toList_ofList]

/-- An expression that begins with none of the letters of `nextval`, `true` and `false` is a
numeral, a string, or one of the calls. -/
theorem postgresDefault_of_head {raw typeName : String} {c : Char} {cs : List Char}
    (hraw : stripRight (stripLeft raw.toList) = c :: cs) (hascii : c.toNat < 128)
    (hletter : c.toLower ∉ ['n', 't', 'f']) :
    postgresDefault (some raw) typeName =
      match numeral? (c :: cs), castString? (c :: cs) with
      | some digits, _ => (Literal.ofNumeral (String.ofList digits)).map (some <| .literal ·)
      | none, some inside => (typedLiteral (undoubled inside) typeName).map (some <| .literal ·)
      | none, none =>
        if isNow (lower (strip raw)) then .ok (some (.call .now))
        else if uuidForms.contains (lower (strip raw)) then .ok (some (.call .uuid))
        else .ok (some (.literal (.text (strip raw)))) := by
  have hne : raw ≠ "" := fun h => by
    rw [h] at hraw
    cases hraw
  have hstrip : (strip raw).toList = c :: cs := (toList_strip raw).trans hraw
  obtain ⟨rest, hlower⟩ := lowerFrom_cons hascii false cs
  have hlow : (lower (strip raw)).toList = c.toLower :: rest := by
    rw [toList_lower, hstrip, hlower]
  simp only [List.mem_cons, List.not_mem_nil, or_false, not_or] at hletter
  have hnext : "nextval(".toList.isPrefixOf (lower (strip raw)).toList = false := by
    have hn : ('n' == c.toLower) = false := beq_eq_false_iff_ne.mpr (Ne.symm hletter.1)
    have hcons : "nextval(".toList = 'n' :: "extval(".toList := by decide
    rw [hlow, hcons, List.isPrefixOf_cons_cons, hn, Bool.false_and]
  have htrue : (lower (strip raw) == "true") = false := beq_eq_false_iff_ne.mpr fun h => by
    rw [h] at hlow
    exact hletter.2.1 (List.cons.inj hlow).1.symm
  have hfalse : (lower (strip raw) == "false") = false := beq_eq_false_iff_ne.mpr fun h => by
    rw [h] at hlow
    exact hletter.2.2 (List.cons.inj hlow).1.symm
  unfold postgresDefault
  rw [Option.filter_some_pos (by simpa using hne)]
  dsimp only
  rw [if_neg (Bool.not_eq_true _ ▸ hnext), htrue, hfalse, hstrip]
  rfl

/-! ### Numbers -/

/-- Whole digits, and places after a point unless there are none. -/
def pointed (ws ps : List Char) : List Char := ws ++ if ps = [] then [] else '.' :: ps

/-- A number with a point has digits and the point. -/
theorem mem_pointed {ws ps : List Char} (hw : IsDigits ws) (hp : IsDigits ps) {c : Char}
    (h : c ∈ pointed ws ps) : c.isDigit = true ∨ c = '.' := by
  unfold pointed at h
  rcases List.mem_append.mp h with h | h
  · exact .inl (hw c h)
  · split at h
    · cases h
    · exact (List.mem_cons.mp h).symm.imp_left (hp c)

section

variable {negative : Bool} {c : Char} {ws ps rest : List Char}

/-- The numeral at the front of a text is its digits, if nothing goes on with them. -/
theorem numeralPrefix?_pointed (hws : ws ≠ []) (hw : IsDigits ws) (hp : IsDigits ps)
    (hrest : ∀ c ∈ rest.head?, isDecimal c = false ∧ c ≠ '.') :
    numeralPrefix? (signed negative (pointed ws ps ++ rest)) =
      some (signed negative (pointed ws ps), rest) := by
  obtain ⟨w, ds, rfl⟩ := List.exists_cons_of_ne_nil hws
  have hminus : w ≠ '-' := ne_of_digit (hw w List.mem_cons_self) (by decide)
  have hpoint : isDecimal '.' = false := by decide
  have hsign : (signed negative (pointed (w :: ds) ps ++ rest)).takeWhile (· == '-') =
      signed negative [] := by
    cases negative <;> simp [signed, pointed, hminus]
  have hrest' : (signed negative (pointed (w :: ds) ps ++ rest)).dropWhile (· == '-') =
      (w :: ds) ++ ((if ps = [] then [] else '.' :: ps) ++ rest) := by
    cases negative <;> simp [signed, pointed, hminus]
  -- neither a point nor what follows the digits is a digit
  have hstop : ∀ c ∈ ((if ps = [] then [] else '.' :: ps) ++ rest).head?, isDecimal c = false := by
    intro c hc
    split at hc
    · exact (hrest c hc).1
    · cases hc
      exact hpoint
  obtain ⟨hwhole, htail⟩ := span_digits hw hstop
  have hlen : decide (1 < (signed negative []).length) = false := by cases negative <;> rfl
  unfold numeralPrefix?
  dsimp only
  rw [hsign, hrest', hwhole, htail, hlen]
  cases ps with
  | nil =>
      have hpointed : signed negative [] ++ (w :: ds) = signed negative (pointed (w :: ds) []) := by
        cases negative <;> simp [signed, pointed]
      rw [hpointed]
      cases rest with
      | nil => rfl
      | cons c rest =>
          have hc : c ≠ '.' := (hrest c rfl).2
          simp only [if_true, List.nil_append, Bool.false_or, List.isEmpty_cons, Bool.false_eq_true,
            if_false]
          split
          next heq => cases heq; exact absurd rfl hc
          next => rfl
  | cons p ps =>
      obtain ⟨hplaces, hend⟩ := span_digits hp fun c hc => (hrest c hc).1
      have hpointed : signed negative [] ++ (w :: ds) ++ '.' :: p :: ps =
          signed negative (pointed (w :: ds) (p :: ps)) := by
        cases negative <;> simp [signed, pointed]
      simp only [reduceCtorEq, if_false, List.cons_append, Bool.false_or, List.isEmpty_cons,
        Bool.false_eq_true] at hplaces hend hpointed ⊢
      simp only [hplaces, hend, List.isEmpty_cons, Bool.false_eq_true, if_false]
      exact congrArg (fun cs => some (cs, rest)) hpointed

/-- Such a text is a numeral if at most a type comes after it. -/
theorem numeral?_pointed (hws : ws ≠ []) (hw : IsDigits ws) (hp : IsDigits ps)
    (hrest : ∀ c ∈ rest.head?, isDecimal c = false ∧ c ≠ '.') :
    numeral? (signed negative (pointed ws ps ++ rest)) =
      if isCast (without? ')' rest) then some (signed negative (pointed ws ps)) else none := by
  have hparen : without? '(' (signed negative (pointed ws ps ++ rest)) =
      signed negative (pointed ws ps ++ rest) := by
    obtain ⟨w, ds, rfl⟩ := List.exists_cons_of_ne_nil hws
    have hne : w ≠ '(' := ne_of_digit (hw w List.mem_cons_self) (by decide)
    cases negative with
    | true => rfl
    | false => exact if_neg hne
  unfold numeral?
  rw [hparen, numeralPrefix?_pointed hws hw hp hrest]

end

theorem stripLeft_append {xs ys : List Char} (hne : xs ≠ []) (h : ∀ c ∈ xs, isBlank c = false) :
    stripLeft (xs ++ ys) = xs ++ ys := by
  obtain ⟨x, xs, rfl⟩ := List.exists_cons_of_ne_nil hne
  exact stripLeft_of_head (h x List.mem_cons_self)

/-- What does not end in a blank keeps it all when the text is stripped. -/
theorem stripRight_append {xs ys : List Char} (h : ∀ c ∈ xs.getLast?, isBlank c = false) :
    stripRight (xs ++ ys) = xs ++ stripRight ys := by
  have hdrop : xs.reverse.dropWhile isBlank = xs.reverse := by
    rw [← List.head?_reverse] at h
    cases hxs : xs.reverse with
    | nil => rfl
    | cons c cs =>
        rw [hxs] at h
        rw [List.dropWhile_cons_of_neg]
        simp [h c rfl]
  unfold stripRight
  rw [List.reverse_append, List.dropWhile_append]
  split
  next hnil =>
      rw [List.isEmpty_iff.mp hnil, hdrop, List.reverse_reverse, List.reverse_nil, List.append_nil]
  next => rw [List.reverse_append, List.reverse_reverse]

/-- A number with a sign begins with a minus sign or a digit. -/
theorem signed_head (negative : Bool) {ws : List Char} (hws : ws ≠ []) (hw : IsDigits ws)
    (cs : List Char) :
    ∃ d ds, signed negative (ws ++ cs) = d :: ds ∧ (d = '-' ∨ d.isDigit = true) := by
  obtain ⟨w, ds, rfl⟩ := List.exists_cons_of_ne_nil hws
  cases negative with
  | true => exact ⟨_, _, rfl, .inl rfl⟩
  | false => exact ⟨_, _, rfl, .inr (hw w List.mem_cons_self)⟩

theorem castString?_eq_none {c : Char} (hc : c ≠ '\'') (cs : List Char) :
    castString? (c :: cs) = none := by
  unfold castString?
  split
  next heq => cases heq; exact absurd rfl hc
  next => rfl

section

variable {negative : Bool} {ws ps rest : List Char} {raw typeName : String}

/-- What an expression that begins with digits is read as. -/
theorem postgresDefault_of_digits (hws : ws ≠ []) (hw : IsDigits ws)
    (hraw : stripRight (stripLeft raw.toList) = signed negative (ws ++ rest)) :
    postgresDefault (some raw) typeName =
      match numeral? (signed negative (ws ++ rest)) with
      | some digits => (Literal.ofNumeral (String.ofList digits)).map (some <| .literal ·)
      | none =>
        if isNow (lower (strip raw)) then .ok (some (.call .now))
        else if uuidForms.contains (lower (strip raw)) then .ok (some (.call .uuid))
        else .ok (some (.literal (.text (strip raw)))) := by
  obtain ⟨d, ds, hcons, hd⟩ := signed_head negative hws hw rest
  have hascii : d.toNat < 128 := by
    rcases hd with rfl | hd
    · decide
    · exact Nat.lt_of_le_of_lt (isDigit_iff.mp hd).2 (by decide)
  have hletter : d.toLower ∉ ['n', 't', 'f'] := by
    rcases hd with rfl | hd
    · decide
    · rw [toLower_of_digit hd]
      intro hmem
      have hall : ['n', 't', 'f'].all (fun c => !c.isDigit) = true := by decide
      have hnot := List.all_eq_true.mp hall d hmem
      rw [hd] at hnot
      cases hnot
  have hquote : d ≠ '\'' := by
    rcases hd with rfl | hd
    · decide
    · exact ne_of_digit hd (by decide)
  rw [hcons] at hraw ⊢
  rw [postgresDefault_of_head hraw hascii hletter, castString?_eq_none hquote]
  cases numeral? (d :: ds) <;> rfl

/-- No blank stands in a number with a point. -/
theorem isBlank_pointed (hw : IsDigits ws) (hp : IsDigits ps) :
    ∀ c ∈ signed negative (pointed ws ps), isBlank c = false := by
  have hall : ∀ c ∈ pointed ws ps, isBlank c = false := fun c hc => by
    rcases mem_pointed hw hp hc with hc | rfl
    · exact isBlank_of_digit hc
    · decide
  cases negative with
  | false => exact hall
  | true => exact List.forall_mem_cons.mpr ⟨by decide, hall⟩

/-- A numeral is read as the number it stands for. -/
theorem postgresDefault_pointed (hws : ws ≠ []) (hw : IsDigits ws) (hp : IsDigits ps)
    (hraw : raw = String.ofList (signed negative (pointed ws ps))) :
    postgresDefault (some raw) typeName = (Literal.ofNumeral raw).map (some <| .literal ·) := by
  have hstrip : stripRight (stripLeft raw.toList) =
      signed negative (ws ++ if ps = [] then [] else '.' :: ps) := by
    rw [hraw, String.toList_ofList, strip_eq_self (isBlank_pointed hw hp)]
    rfl
  have hnumeral : numeral? (signed negative (ws ++ if ps = [] then [] else '.' :: ps)) =
      some (signed negative (pointed ws ps)) := by
    have hall : numeral? (signed negative (pointed ws ps ++ [])) = _ :=
      numeral?_pointed hws hw hp fun c hc => by cases hc
    rwa [List.append_nil] at hall
  rw [postgresDefault_of_digits hws hw hstrip, hnumeral, hraw]

/-- A number with an exponent is no numeral, and is read as a text. -/
theorem postgresDefault_scientific (hws : ws ≠ []) (hw : IsDigits ws) (hp : IsDigits ps)
    (hraw : raw = String.ofList (signed negative (pointed ws ps ++ 'e' :: rest))) :
    ∃ d, postgresDefault (some raw) typeName = .ok d := by
  have hsigned : ∀ cs,
      signed negative (pointed ws ps ++ cs) = signed negative (pointed ws ps) ++ cs :=
    fun cs => by cases negative <;> rfl
  have hne : signed negative (pointed ws ps) ≠ [] := by
    obtain ⟨d, ds, hcons, -⟩ := signed_head negative hws hw (if ps = [] then [] else '.' :: ps)
    exact fun h => by rw [pointed, hcons] at h; cases h
  have hleft : stripLeft raw.toList = signed negative (pointed ws ps) ++ ['e'] ++ rest := by
    rw [hraw, String.toList_ofList, hsigned, stripLeft_append hne (isBlank_pointed hw hp),
      List.append_assoc]
    rfl
  have hstrip : stripRight (stripLeft raw.toList) =
      signed negative (ws ++ ((if ps = [] then [] else '.' :: ps) ++ 'e' :: stripRight rest)) := by
    have hlast : ∀ c ∈ (signed negative (pointed ws ps) ++ ['e']).getLast?, isBlank c = false := by
      intro c hc
      rw [List.getLast?_append] at hc
      cases hc
      decide
    rw [hleft, stripRight_append hlast, List.append_assoc, ← List.append_assoc ws]
    exact (hsigned _).symm
  have hnumeral : numeral?
      (signed negative (ws ++ ((if ps = [] then [] else '.' :: ps) ++ 'e' :: stripRight rest))) =
      none := by
    have hall : numeral? (signed negative (pointed ws ps ++ 'e' :: stripRight rest)) = _ :=
      numeral?_pointed hws hw hp fun c hc => by cases hc; decide
    rw [← List.append_assoc]
    exact hall
  rw [postgresDefault_of_digits hws hw hstrip, hnumeral]
  dsimp only
  split
  · exact ⟨_, rfl⟩
  · split
    · exact ⟨_, rfl⟩
    · exact ⟨_, rfl⟩

end

theorem toString_eq_pointed (n : Int) : toString n =
    String.ofList (signed (decide (n < 0)) (pointed (Nat.toDigits 10 n.natAbs) [])) := by
  rw [pointed, if_pos rfl, List.append_nil, ← toList_toString_int, String.ofList_toList]

/-- The numeral of an integer stands for it, if it has no more digits than are read. -/
theorem ofNumeral_toString {n : Int} (h : n.natAbs < 10 ^ integerDigitLimit) :
    Literal.ofNumeral (toString n) = .ok (.int n) := by
  -- without a point it is read as an integer
  have hpoint : (toString n).toList.contains '.' = false := by
    rw [toList_toString_int, ← Bool.not_eq_true, List.contains_iff_mem]
    intro hmem
    have hdigits : '.' ∉ Nat.toDigits 10 n.natAbs := fun h =>
      absurd (isDigits_toDigits _ _ h) (by decide)
    cases hn : decide (n < 0) <;> simp [hn, signed, hdigits] at hmem
  rw [Literal.ofNumeral, hpoint, if_neg Bool.false_ne_true, integer_toString h]
  rfl

/-- **An integer** is read back from its digits. -/
theorem postgresDefault_int {n : Int} (h : n.natAbs < 10 ^ integerDigitLimit) (typeName : String) :
    postgresDefault (some (toString n)) typeName = .ok (some (.literal (.int n))) := by
  rw [postgresDefault_pointed Nat.toDigits_ne_nil (isDigits_toDigits _)
    (fun c hc => absurd hc List.not_mem_nil) (toString_eq_pointed n), ofNumeral_toString h]
  rfl

section

variable {x : Binary64} {negative : Bool} {ws ps : List Char}

theorem text_eq_pointed (htext : Binary64.IsPointed x.text negative ws ps) :
    x.text = String.ofList (signed negative (pointed ws ps)) := by
  rw [pointed, if_neg htext.places.1]
  exact htext.text

/-- The numeral of a number of double precision stands for it, if it is written with a point. -/
theorem ofNumeral_text (htext : Binary64.IsPointed x.text negative ws ps)
    (hread : fraction x.text = .ok x) : Literal.ofNumeral x.text = .ok (.float x) := by
  have hpoint : x.text.toList.contains '.' = true := by
    rw [htext.text, String.toList_ofList, List.contains_iff_mem]
    cases negative <;> simp [signed]
  rw [Literal.ofNumeral, hpoint, if_pos rfl, hread]
  rfl

/-- **A number of double precision** is read back from its digits, if it is written without an
exponent. -/
theorem postgresDefault_float (htext : Binary64.IsPointed x.text negative ws ps)
    (hread : fraction x.text = .ok x) (typeName : String) :
    postgresDefault (some x.text) typeName = .ok (some (.literal (.float x))) := by
  rw [postgresDefault_pointed htext.whole.1 htext.whole.2 htext.places.2 (text_eq_pointed htext),
    ofNumeral_text htext hread]
  rfl

end

/-- However a number of double precision is written, it is read as something. -/
theorem postgresDefault_float_ok {x : Binary64} (hx : x.IsDouble) (typeName : String) :
    ∃ d, postgresDefault (some x.text) typeName = .ok d := by
  rcases Binary64.text_cases hx with
    ⟨negative, ws, ps, htext, hread⟩ | ⟨negative, ws, ps, hscientific⟩ | ⟨negative, rfl⟩
  · exact ⟨_, postgresDefault_float htext hread typeName⟩
  · obtain ⟨⟨hws, hw⟩, hp, rest, htext⟩ := hscientific
    exact postgresDefault_scientific hws hw hp htext
  · cases negative with
    | true => exact ⟨_, by with_unfolding_all rfl⟩
    | false => exact ⟨_, by with_unfolding_all rfl⟩

/-! ### Strings -/

/-- Quotes that are doubled are read once. -/
theorem undoubled_doubled (cs : List Char) : undoubled (doubled '\'' cs) = cs := by
  unfold doubled
  induction cs with
  | nil => rfl
  | cons c cs ih =>
      rw [List.flatMap_cons]
      by_cases hc : c = '\''
      · rw [if_pos hc, hc, List.cons_append, List.cons_append, List.nil_append, undoubled, ih]
      · rw [if_neg hc, List.cons_append, List.nil_append, undoubled, ih]
        exact fun _ h => absurd h hc

/-- Without a quote there is no end of a string. -/
theorem beforeCast?_eq_none {cs : List Char} (h : '\'' ∉ cs) : beforeCast? cs = none := by
  induction cs with
  | nil => rfl
  | cons c cs ih =>
      rw [List.mem_cons, not_or] at h
      unfold beforeCast?
      rw [ih h.2]
      have hc : ('\'' == c) = false := beq_eq_false_iff_ne.mpr h.1
      simp [List.isPrefixOf, hc]

/-- The last quote with a double colon after it ends the string. -/
theorem beforeCast?_append {xs type : List Char} (h : '\'' ∉ type) :
    beforeCast? (xs ++ '\'' :: ':' :: ':' :: type) = some xs := by
  induction xs with
  | nil =>
      have hnone : beforeCast? (':' :: ':' :: type) = none :=
        beforeCast?_eq_none (by simp [h])
      rw [List.nil_append]
      unfold beforeCast?
      rw [hnone]
      rfl
  | cons x xs ih =>
      rw [List.cons_append]
      unfold beforeCast?
      rw [ih]

theorem mem_of_mem_stripRight {cs : List Char} {c : Char} (h : c ∈ stripRight cs) : c ∈ cs := by
  unfold stripRight at h
  rw [List.mem_reverse] at h
  exact List.mem_reverse.mp ((List.dropWhile_suffix _).subset h)

/-- **A string** is read back from its quotes, if the column holds no numbers. -/
theorem postgresDefault_string {type typeName : String} (hquote : '\'' ∉ type.toList)
    (hname : typeName ≠ Scalar.int.name ∧ typeName ≠ Scalar.float.name) (text : String) :
    postgresDefault (some (enclosed '\'' text ++ "::" ++ type)) typeName =
      .ok (some (.literal (.text text))) := by
  have hlist : (enclosed '\'' text ++ "::" ++ type).toList =
      '\'' :: (doubled '\'' text.toList ++ ['\'', ':', ':']) ++ type.toList := by
    simp [enclosed]
  have hlast : ∀ c ∈ ('\'' :: (doubled '\'' text.toList ++ ['\'', ':', ':'])).getLast?,
      isBlank c = false := by
    intro c hc
    rw [← List.cons_append, List.getLast?_append] at hc
    cases hc
    decide
  have hstrip : stripRight (stripLeft (enclosed '\'' text ++ "::" ++ type).toList) =
      '\'' :: (doubled '\'' text.toList ++ '\'' :: ':' :: ':' :: stripRight type.toList) := by
    rw [hlist, List.cons_append, stripLeft_of_head (by decide), ← List.cons_append,
      stripRight_append hlast]
    simp
  have hnumeral : ∀ cs, numeral? ('\'' :: cs) = none := fun cs => by
    simp [numeral?, without?, numeralPrefix?, show isDecimal '\'' = false by decide]
  -- the type has no quote, so the last one that a double colon follows ends the string
  have hcast : castString?
      ('\'' :: (doubled '\'' text.toList ++ '\'' :: ':' :: ':' :: stripRight type.toList)) =
      some (doubled '\'' text.toList) :=
    beforeCast?_append fun h => hquote (mem_of_mem_stripRight h)
  have htyped : typedLiteral text.toList typeName = .ok (.text text) := by
    unfold typedLiteral
    rw [beq_eq_false_iff_ne.mpr hname.1, beq_eq_false_iff_ne.mpr hname.2]
    simp
  rw [postgresDefault_of_head hstrip (by decide) (by decide), hnumeral, hcast]
  dsimp only
  rw [undoubled_doubled, htyped]
  rfl

/-! ### Calls -/

/-- The lower case of ASCII characters is that of each. -/
theorem lowerFrom_append {xs : List Char} (h : ∀ c ∈ xs, c.toNat < 128) (inWord : Bool)
    (ys : List Char) : ∃ rest, lowerFrom inWord (xs ++ ys) = xs.map Char.toLower ++ rest := by
  induction xs generalizing inWord with
  | nil => exact ⟨_, rfl⟩
  | cons x xs ih =>
      obtain ⟨hx, hxs⟩ := List.forall_mem_cons.mp h
      rw [List.cons_append]
      unfold lowerFrom
      rw [if_neg (by simp; omega), lowerChars_of_ascii hx]
      obtain ⟨rest, hrest⟩ := ih hxs (if isInner x then inWord else isCased x)
      rw [hrest]
      exact ⟨rest, rfl⟩

/-- **A sequence** is read as counting up. -/
theorem postgresDefault_nextval (sequence typeName : String) :
    postgresDefault (some ("nextval(" ++ sequence)) typeName =
      .ok (some (.call .autoincrement)) := by
  have hall : "nextval(".toList.all (fun c => 33 ≤ c.toNat && c.toNat < 127) = true := by decide
  have hvisible : ∀ c ∈ "nextval(".toList, 33 ≤ c.toNat ∧ c.toNat < 127 := fun c hc => by
    simpa using List.all_eq_true.mp hall c hc
  have hblank : ∀ c ∈ "nextval(".toList, isBlank c = false := fun c hc =>
    isBlank_of_visible (hvisible c hc).1 (hvisible c hc).2
  have hlast : ∀ c ∈ "nextval(".toList.getLast?, isBlank c = false := fun c hc =>
    hblank c (List.mem_of_getLast? hc)
  have hstrip : (strip ("nextval(" ++ sequence)).toList =
      "nextval(".toList ++ stripRight sequence.toList := by
    rw [toList_strip, String.toList_append, stripLeft_append (by decide) hblank,
      stripRight_append hlast]
  have hascii : ∀ c ∈ "nextval(".toList, c.toNat < 128 := fun c hc =>
    Nat.lt_succ_of_lt (hvisible c hc).2
  obtain ⟨rest, hrest⟩ := lowerFrom_append hascii false (stripRight sequence.toList)
  have hnext : "nextval(".toList.isPrefixOf
      (lower (strip ("nextval(" ++ sequence))).toList = true := by
    rw [toList_lower, hstrip, hrest, List.isPrefixOf_iff_prefix]
    exact ⟨rest, by rw [show "nextval(".toList.map Char.toLower = "nextval(".toList by decide]⟩
  unfold postgresDefault
  rw [Option.filter_some_pos (by simp)]
  simp only [hnext, if_true]

theorem postgresDefault_none (typeName : String) : postgresDefault none typeName = .ok none := rfl

theorem postgresDefault_bool (b : Bool) (typeName : String) :
    postgresDefault (some (if b then "true" else "false")) typeName =
      .ok (some (.literal (.bool b))) := by
  cases b <;> with_unfolding_all rfl

/-- What Postgres calls for a generated default is read as that default. -/
theorem postgresDefault_call {g : Generator} {text : String}
    (h : g.expression? .postgres = some text) (typeName : String) :
    postgresDefault (some text) typeName = .ok (some (.call g)) := by
  cases g <;> cases h <;> with_unfolding_all rfl

end Schemata
