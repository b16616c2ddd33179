import Mathlib.Data.List.TakeWhile
import Schemata.Proofs.Number.Rounding
import Schemata.Proofs.Text.Layout
import Schemata.Schema

/-!
# Proofs — numbers — reading what was written

The digits `0` to `9` are read in every numeral as what they stand for, with a sign before them or
none (`Numeral.integer_of_digits`, `Numeral.fraction_of_digits`).  So an integer is read from its
own text (`Numeral.integer_toString`), and a number of double precision from its own if that is
written without an exponent (`Numeral.fraction_text`).
-/

namespace Schemata

-- Powers of whole numbers are the ones of the core library, whichever algebra is imported.
attribute [local instance (high)] instPowNat

open Text

/-! ### Digits -/

section

variable {c : Char}

theorem isDigit_iff : c.isDigit = true ↔ 48 ≤ c.toNat ∧ c.toNat ≤ 57 := by
  simp [Char.isDigit, UInt32.le_iff_toNat_le]

theorem isDecimal_of_digit (h : c.isDigit = true) : isDecimal c = true := by
  rw [isDecimal_of_ascii (Nat.lt_of_le_of_lt (isDigit_iff.mp h).2 (by decide)), h]

theorem decimalValue?_of_digit (h : c.isDigit = true) : decimalValue? c = some (c.toNat - 48) := by
  unfold decimalValue?
  rw [if_pos (Nat.lt_of_le_of_lt (isDigit_iff.mp h).2 (by decide)), if_pos h]

theorem isBlank_of_digit (h : c.isDigit = true) : isBlank c = false := by
  obtain ⟨hlow, hhigh⟩ := isDigit_iff.mp h
  exact isBlank_of_visible (by omega) (by omega)

theorem ne_of_digit {d : Char} (h : c.isDigit = true) (hd : d.isDigit = false) : c ≠ d :=
  fun hcd => by rw [hcd, hd] at h; cases h

theorem toLower_of_digit (h : c.isDigit = true) : c.toLower = c := by
  obtain ⟨hlow, hhigh⟩ := isDigit_iff.mp h
  unfold Char.toLower
  rw [dif_neg]
  rintro ⟨hA, -⟩
  have : 65 ≤ c.toNat := hA
  omega

end

/-- A row of the digits `0` to `9`. -/
def IsDigits (cs : List Char) : Prop := ∀ c ∈ cs, c.isDigit = true

theorem isDigits_toDigits (n : Nat) : IsDigits (Nat.toDigits 10 n) := fun _ =>
  Nat.isDigit_of_mem_toDigits (by decide) (by decide)

/-- A text of visible characters has nothing to strip. -/
theorem strip_eq_self {cs : List Char} (h : ∀ c ∈ cs, isBlank c = false) :
    stripRight (stripLeft cs) = cs := by
  have hdrop : ∀ ds : List Char, (∀ c ∈ ds, isBlank c = false) → ds.dropWhile isBlank = ds := by
    intro ds hds
    cases ds with
    | nil => rfl
    | cons d ds => rw [List.dropWhile_cons_of_neg]; simp [hds d List.mem_cons_self]
  unfold stripRight stripLeft
  rw [hdrop cs h, hdrop cs.reverse fun c hc => h c (List.mem_reverse.mp hc), List.reverse_reverse]

namespace Numeral

/-- A text with a minus sign before it, or without. -/
def signed (negative : Bool) (cs : List Char) : List Char := if negative then '-' :: cs else cs

/-- A sign before a digit is split off. -/
theorem splitSign_signed (negative : Bool) {c : Char} {cs : List Char} (hc : c.isDigit = true) :
    splitSign (signed negative (c :: cs)) = (negative, c :: cs) := by
  have hminus : c ≠ '-' := ne_of_digit hc (by decide)
  have hplus : c ≠ '+' := ne_of_digit hc (by decide)
  cases negative with
  | true => rfl
  | false =>
      show splitSign (c :: cs) = _
      unfold splitSign
      split
      next heq => cases heq; exact absurd rfl hminus
      next heq => cases heq; exact absurd rfl hplus
      next => rfl

/-- The values of digits count from 48. -/
theorem digitValues_of_digits {cs : List Char} (h : IsDigits cs) :
    digitValues cs = cs.map fun c => c.toNat - 48 := by
  unfold digitValues
  induction cs with
  | nil => rfl
  | cons c cs ih =>
      obtain ⟨hc, hcs⟩ := List.forall_mem_cons.mp h
      rw [List.filterMap_cons_some (decimalValue?_of_digit hc), ih hcs, List.map_cons]

theorem ofDigits_of_digits {cs : List Char} (h : IsDigits cs) :
    ofDigits (digitValues cs) = Nat.ofDigitChars 10 cs 0 := by
  rw [digitValues_of_digits h, ofDigits, List.foldl_map, Nat.ofDigitChars_eq_foldl]
  congr 1
  funext n c
  rw [Nat.mul_comm]
  rfl

/-- Without underscores there is nothing to fit. -/
theorem underscoresFit_of_not_mem {afterDigit : Bool} {cs : List Char} (h : '_' ∉ cs) :
    underscoresFit afterDigit cs = true := by
  induction cs generalizing afterDigit with
  | nil => rfl
  | cons c cs ih =>
      rw [List.mem_cons, not_or] at h
      unfold underscoresFit
      split
      next heq => cases heq
      next heq => cases heq; exact absurd rfl h.1
      next heq => cases heq; exact ih h.2

/-- A signed text without blanks is its own core. -/
theorem core_signed {negative : Bool} {cs : List Char} (h : ∀ c ∈ cs, isBlank c = false) :
    core (String.ofList (signed negative cs)) = signed negative cs := by
  unfold core
  rw [String.toList_ofList]
  refine strip_eq_self fun c hc => ?_
  cases negative with
  | false => exact h c hc
  | true =>
      rcases List.mem_cons.mp hc with rfl | hc
      · decide
      · exact h c hc

/-- Digits are read as the integer they write, if there are not too many. -/
theorem integer_of_digits (negative : Bool) {cs : List Char} (hne : cs ≠ []) (h : IsDigits cs)
    (hlen : cs.length ≤ integerDigitLimit) :
    integer (String.ofList (signed negative cs)) =
      .ok (if negative then -(Nat.ofDigitChars 10 cs 0 : Int) else Nat.ofDigitChars 10 cs 0) := by
  obtain ⟨c, ds, rfl⟩ := List.exists_cons_of_ne_nil hne
  have hrun : (c :: ds).takeWhile (fun c => isDecimal c || c == '_') = c :: ds :=
    List.takeWhile_eq_self_iff.mpr fun d hd => by rw [isDecimal_of_digit (h d hd)]; rfl
  have hscore : '_' ∉ c :: ds := fun hmem => absurd (h _ hmem) (by decide)
  have hcount : (digitValues (c :: ds)).length = (c :: ds).length := by
    rw [digitValues_of_digits h, List.length_map]
  have hsome : (digitValues (c :: ds)).isEmpty = false := by
    rw [digitValues_of_digits h]
    rfl
  unfold integer
  rw [core_signed fun d hd => isBlank_of_digit (h d hd), splitSign_signed _ (h c List.mem_cons_self)]
  dsimp only
  rw [hrun, hsome, underscoresFit_of_not_mem hscore, hcount, if_neg (by decide),
    if_neg (Nat.not_lt.mpr hlen), if_neg (Nat.lt_irrefl _), ofDigits_of_digits h]

/-- Digits are taken as long as nothing goes on with them. -/
theorem span_digits {ws rest : List Char} (hw : IsDigits ws)
    (hrest : ∀ c ∈ rest.head?, isDecimal c = false) :
    (ws ++ rest).takeWhile isDecimal = ws ∧ (ws ++ rest).dropWhile isDecimal = rest :=
  span_append (fun d hd => isDecimal_of_digit (hw d hd)) hrest

/-- What begins with a digit is no name of an infinity. -/
theorem infinityNames_of_digit {c : Char} (hc : c.isDigit = true) (cs : List Char) :
    infinityNames.contains (String.ofList ((c :: cs).map Char.toLower)) = false := by
  rw [← Bool.not_eq_true, List.contains_iff_mem]
  intro hin
  have hhead : c = 'i' := by
    simp only [infinityNames, List.mem_cons, List.not_mem_nil, or_false] at hin
    rcases hin with hin | hin <;>
      simpa [toLower_of_digit hc] using congrArg (fun s => s.toList.head?) hin
  exact ne_of_digit hc (by decide) hhead

/-- Digits with a point between them are read as the number nearest to the decimal they write. -/
theorem fraction_of_digits (negative : Bool) {ws ps : List Char} (hne : ws ≠ []) (hw : IsDigits ws)
    (hp : IsDigits ps) :
    fraction (String.ofList (signed negative (ws ++ '.' :: ps))) =
      .ok (.ofDecimal negative (Nat.ofDigitChars 10 (ws ++ ps) 0) (-(ps.length : Int))) := by
  obtain ⟨c, ds, rfl⟩ := List.exists_cons_of_ne_nil hne
  have hc : c.isDigit = true := hw c List.mem_cons_self
  have hmem : ∀ d ∈ c :: ds ++ '.' :: ps, d.isDigit = true ∨ d = '.' := fun d hd => by
    rcases List.mem_append.mp hd with hd | hd
    · exact .inl (hw d hd)
    · exact (List.mem_cons.mp hd).symm.imp_left (hp d)
  have hscore : '_' ∉ c :: ds ++ '.' :: ps := fun h => (hmem _ h).elim
    (fun h => absurd h (by decide)) (fun h => absurd h (by decide))
  have hblank : ∀ d ∈ c :: ds ++ '.' :: ps, isBlank d = false := fun d hd => by
    rcases hmem d hd with hd | rfl
    · exact isBlank_of_digit hd
    · decide
  have hinf : infinityNames.contains
      (String.ofList ((c :: ds ++ '.' :: ps).map Char.toLower)) = false :=
    infinityNames_of_digit hc _
  have hfilter : (c :: ds ++ '.' :: ps).filter (· != '_') = c :: ds ++ '.' :: ps :=
    List.filter_eq_self.mpr fun d hd => by
      rw [bne_iff_ne]
      exact fun h => hscore (h ▸ hd)
  obtain ⟨hwhole, hrest⟩ := @span_digits (c :: ds) ('.' :: ps) hw fun d hd => by
    cases hd
    decide
  have hplaces : ps.takeWhile isDecimal = ps :=
    List.takeWhile_eq_self_iff.mpr fun d hd => isDecimal_of_digit (hp d hd)
  have htail : ps.dropWhile isDecimal = [] :=
    List.dropWhile_eq_nil_iff.mpr fun d hd => isDecimal_of_digit (hp d hd)
  have hdigits : IsDigits (c :: ds ++ ps) := List.forall_mem_append.mpr ⟨hw, hp⟩
  have hread : fraction? (String.ofList (signed negative (c :: ds ++ '.' :: ps))) =
      some (.ofDecimal negative (Nat.ofDigitChars 10 (c :: ds ++ ps) 0) (-(ps.length : Int))) := by
    unfold fraction?
    rw [core_signed hblank, List.cons_append, splitSign_signed _ hc, ← List.cons_append]
    dsimp only
    rw [hinf, underscoresFit_of_not_mem hscore, hfilter, hwhole, hrest]
    have hvalue : ofDigits (digitValues (c :: (ds ++ ps))) = _ := ofDigits_of_digits hdigits
    simp [hplaces, htail, hvalue, exponent?]
  unfold fraction
  rw [hread]

/-! ### Integers -/

/-- An integer is written with its digits, behind a minus sign if it is negative. -/
theorem toList_toString_int (n : Int) :
    (toString n).toList = signed (decide (n < 0)) (Nat.toDigits 10 n.natAbs) := by
  rw [Int.toString_eq_repr, Int.repr_eq_if]
  by_cases hn : 0 ≤ n
  · rw [if_pos hn, Nat.toList_repr, decide_eq_false (Int.not_lt.mpr hn),
      show n.toNat = n.natAbs by omega]
    rfl
  · rw [if_neg hn, String.toList_append, Nat.toList_repr, decide_eq_true (Int.not_le.mp hn),
      show (-n).toNat = n.natAbs by omega]
    rfl

/-- **An integer** is read from its own text, if it has no more digits than are read. -/
theorem integer_toString {n : Int} (h : n.natAbs < 10 ^ integerDigitLimit) :
    integer (toString n) = .ok n := by
  have htext : toString n =
      String.ofList (signed (decide (n < 0)) (Nat.toDigits 10 n.natAbs)) := by
    rw [← toList_toString_int, String.ofList_toList]
  have hlen : (Nat.toDigits 10 n.natAbs).length ≤ integerDigitLimit :=
    (Nat.length_toDigits_le_iff (by decide) (by decide)).mpr h
  rw [htext, integer_of_digits _ Nat.toDigits_ne_nil (isDigits_toDigits _) hlen,
    Nat.ofDigitChars_ten_toDigits]
  congr 1
  by_cases hn : n < 0
  · simp only [hn, decide_true, if_true]
    omega
  · simp only [hn, decide_false, Bool.false_eq_true, if_false]
    omega

/-- The value of a decimal digit is less than ten. -/
theorem decimalValue?_lt {c : Char} {v : Nat} (h : decimalValue? c = some v) : v < 10 := by
  unfold decimalValue? at h
  split at h
  · split at h <;> cases h
    next hc =>
      have := (isDigit_iff.mp hc).2
      omega
  · obtain ⟨z, hz, rfl⟩ := Option.map_eq_some_iff.mp h
    have := List.find?_some hz
    simp only [Bool.and_eq_true, decide_eq_true_eq] at this
    omega

/-- Digits make a number with no more digits. -/
theorem ofDigits_lt {ds : List Nat} (h : ∀ d ∈ ds, d < 10) : ofDigits ds < 10 ^ ds.length := by
  unfold ofDigits
  have hstep : ∀ (ds : List Nat) (n k : Nat), (∀ d ∈ ds, d < 10) → n < 10 ^ k →
      ds.foldl (fun n d => n * 10 + d) n < 10 ^ (k + ds.length) := by
    intro ds
    induction ds with
    | nil => exact fun n k _ hn => hn
    | cons d ds ih =>
        intro n k hds hn
        obtain ⟨hd, hds⟩ := List.forall_mem_cons.mp hds
        have := ih (n * 10 + d) (k + 1) hds (by rw [Nat.pow_succ]; omega)
        rwa [Nat.add_assoc, Nat.add_comm 1] at this
  simpa using hstep ds 0 0 h (by decide)

/-- An integer that was read has no more digits than are read. -/
theorem natAbs_lt_of_integer {text : String} {n : Int} (h : integer text = .ok n) :
    n.natAbs < 10 ^ integerDigitLimit := by
  unfold integer at h
  dsimp only at h
  split at h
  · cases h
  · split at h
    · cases h
    next hlen =>
      split at h
      · cases h
      · have hdigits : ∀ run : List Char, ∀ d ∈ digitValues run, d < 10 := fun run d hd => by
          obtain ⟨c, -, hc⟩ := List.mem_filterMap.mp hd
          exact decimalValue?_lt hc
        have hle := Nat.pow_le_pow_right (show 0 < 10 by decide) (Nat.not_lt.mp hlen)
        have hlt := Nat.lt_of_lt_of_le (ofDigits_lt (hdigits _)) hle
        cases h
        split <;> simpa using hlt

/-- Digits are a number of double precision, whatever exponent is found. -/
theorem isDouble_of_map_ofDecimal {exponent : Option Int} {f : Int → Int} {negative : Bool}
    {digits : Nat} {x : Binary64}
    (h : (exponent.map fun e => .ofDecimal negative digits (f e)) = some x) : x.IsDouble := by
  obtain ⟨e, -, rfl⟩ := Option.map_eq_some_iff.mp h
  exact Binary64.isDouble_ofDecimal negative digits (f e)

/-- What a text writes is a number of double precision. -/
theorem isDouble_of_fraction {text : String} {x : Binary64} (h : fraction text = .ok x) :
    x.IsDouble := by
  unfold fraction at h
  split at h
  next y hy =>
      cases h
      unfold fraction? at hy
      dsimp only at hy
      split at hy
      · cases hy
        trivial
      · split at hy
        · cases hy
        · split at hy
          all_goals
            dsimp only at hy
            split at hy
            · cases hy
            · exact isDouble_of_map_ofDecimal hy
  next => cases h

end Numeral

/-- A numeral with a point is a number of double precision; the others are integers. -/
theorem Literal.ofNumeral_ok_iff {text : String} {v : Literal} :
    ofNumeral text = .ok v ↔
      if text.toList.contains '.' then ∃ x, Numeral.fraction text = .ok x ∧ v = .float x
      else ∃ n, Numeral.integer text = .ok n ∧ v = .int n := by
  unfold ofNumeral
  split
  · cases Numeral.fraction text <;> simp [Except.map, eq_comm]
  · cases Numeral.integer text <;> simp [Except.map, eq_comm]

/-! ### Numbers of double precision -/

namespace Binary64

open Numeral

/-- A text of digits with a point between them that writes the decimal `d`. -/
def Writes (ws ps : List Char) (d : Decimal) : Prop :=
  ∀ negative, ofDecimal negative (Nat.ofDigitChars 10 (ws ++ ps) 0) (-(ps.length : Int)) =
    d.toBinary64 negative

theorem isDigits_replicate (n : Nat) : IsDigits (List.replicate n '0') := fun c hc => by
  rw [List.eq_of_mem_replicate hc]
  rfl

theorem isDigits_append {cs ds : List Char} (h : IsDigits cs) (h' : IsDigits ds) :
    IsDigits (cs ++ ds) :=
  List.forall_mem_append.mpr ⟨h, h'⟩

section

variable {d : Decimal} {ds : List Char}

/-- Zeros may stand between the point and the digits. -/
theorem writes_small (hvalue : Nat.ofDigitChars 10 ds 0 = d.digits)
    (hpoint : ds.length + d.exponent ≤ 0) :
    Writes ['0'] (List.replicate (-(ds.length + d.exponent)).toNat '0' ++ ds) d := fun negative => by
  have hzeros : Nat.ofDigitChars 10
      (['0'] ++ (List.replicate (-(ds.length + d.exponent)).toNat '0' ++ ds)) 0 = d.digits := by
    rw [Nat.ofDigitChars_append, Nat.ofDigitChars_append, Nat.ofDigitChars_replicate_zero,
      show Nat.ofDigitChars 10 ['0'] 0 = 0 from rfl, Nat.mul_zero, hvalue]
  rw [hzeros, List.length_append, List.length_replicate]
  unfold Decimal.toBinary64
  congr 1
  omega

/-- Zeros may stand between the digits and the point. -/
theorem writes_whole (hvalue : Nat.ofDigitChars 10 ds 0 = d.digits) (hd : 0 < d.digits)
    (hpoint : 0 < ds.length + d.exponent) (hwhole : ds.length ≤ (ds.length + d.exponent).toNat) :
    Writes (ds ++ List.replicate ((ds.length + d.exponent).toNat - ds.length) '0') ['0'] d :=
  fun negative => by
    obtain ⟨k, hk⟩ : ∃ k : Nat, d.exponent = k := ⟨d.exponent.toNat, by omega⟩
    have hcount : (ds.length + d.exponent).toNat - ds.length = k := by omega
    have hzeros : Nat.ofDigitChars 10 (ds ++ List.replicate k '0' ++ ['0']) 0 =
        d.digits * 10 ^ (k + 1) := by
      rw [List.append_assoc, ← List.replicate_succ', Nat.ofDigitChars_append, hvalue,
        Nat.ofDigitChars_replicate_zero, Nat.mul_comm]
    rw [hcount, hzeros]
    unfold Decimal.toBinary64
    rw [hk]
    exact ofDecimal_mul_pow negative hd k

/-- The point may stand between the digits. -/
theorem writes_inside (hvalue : Nat.ofDigitChars 10 ds 0 = d.digits)
    (hpoint : 0 < ds.length + d.exponent) (hinside : (ds.length + d.exponent).toNat < ds.length) :
    Writes (ds.take (ds.length + d.exponent).toNat) (ds.drop (ds.length + d.exponent).toNat) d :=
  fun negative => by
    rw [List.take_append_drop, hvalue, List.length_drop]
    unfold Decimal.toBinary64
    congr 1
    omega

end

theorem exponentText_toList (e : Int) : ∃ rest, (exponentText e).toList = 'e' :: rest := by
  unfold exponentText
  rw [String.append_assoc, String.toList_append]
  split
  · exact ⟨_, rfl⟩
  · exact ⟨_, rfl⟩

/-- How a decimal is written: with a point, or with an exponent. -/
theorem decimalText_cases {d : Decimal} (hd : 0 < d.digits) :
    (∃ ws ps, ws ≠ [] ∧ ps ≠ [] ∧ IsDigits ws ∧ IsDigits ps ∧ Writes ws ps d ∧
      (decimalText d).toList = ws ++ '.' :: ps) ∨
    ∃ ws ps rest, ws ≠ [] ∧ IsDigits ws ∧ IsDigits ps ∧ (decimalText d).toList =
      ws ++ (if ps = [] then [] else '.' :: ps) ++ 'e' :: rest := by
  have hdigits := isDigits_toDigits d.digits
  have hne : Nat.toDigits 10 d.digits ≠ [] := Nat.toDigits_ne_nil
  have hvalue : Nat.ofDigitChars 10 (Nat.toDigits 10 d.digits) 0 = d.digits :=
    Nat.ofDigitChars_ten_toDigits
  unfold decimalText
  dsimp only
  generalize Nat.toDigits 10 d.digits = ds at *
  split
  next hpoint =>
    split
    next hsmall =>
      refine .inl ⟨_, _, List.cons_ne_nil _ _, ?_, isDigits_replicate 1,
        isDigits_append (isDigits_replicate _) hdigits, writes_small hvalue hsmall, ?_⟩
      · exact fun h => hne (List.append_eq_nil_iff.mp h).2
      · rw [String.toList_ofList]
        rfl
    next hlarge =>
      have hlarge : 0 < ds.length + d.exponent := by omega
      split
      next hwhole =>
        refine .inl ⟨_, _, ?_, List.cons_ne_nil _ _, isDigits_append hdigits (isDigits_replicate _),
          isDigits_replicate 1, writes_whole hvalue hd hlarge hwhole, ?_⟩
        · exact fun h => hne (List.append_eq_nil_iff.mp h).1
        · rw [String.toList_ofList]
          simp
      next hinside =>
        have hinside := Nat.not_le.mp hinside
        refine .inl ⟨_, _, ?_, ?_, fun c hc => hdigits c (List.mem_of_mem_take hc),
          fun c hc => hdigits c (List.mem_of_mem_drop hc), writes_inside hvalue hlarge hinside, ?_⟩
        · rw [ne_eq, List.take_eq_nil_iff, not_or]
          exact ⟨by omega, hne⟩
        · rw [ne_eq, List.drop_eq_nil_iff]
          omega
        · rw [String.toList_ofList]
  next hpoint =>
    obtain ⟨c, cs, rfl⟩ := List.exists_cons_of_ne_nil hne
    obtain ⟨rest, hrest⟩ := exponentText_toList ((c :: cs).length + d.exponent - 1)
    refine .inr ⟨[c], cs, rest, List.cons_ne_nil _ _, List.forall_mem_singleton.mpr
      (hdigits c List.mem_cons_self), fun e he => hdigits e (List.mem_cons_of_mem c he), ?_⟩
    rw [String.toList_append, String.toList_ofList, hrest]
    cases cs <;> simp

/-- The text is the digits `ws` and `ps` with a point between them, and perhaps a sign. -/
structure IsPointed (text : String) (negative : Bool) (ws ps : List Char) : Prop where
  whole : ws ≠ [] ∧ IsDigits ws
  places : ps ≠ [] ∧ IsDigits ps
  text : text = String.ofList (signed negative (ws ++ '.' :: ps))

/-- The text has an exponent after the digits `ws` and `ps`. -/
structure IsScientific (text : String) (negative : Bool) (ws ps : List Char) : Prop where
  whole : ws ≠ [] ∧ IsDigits ws
  places : IsDigits ps
  text : ∃ rest, text =
    String.ofList (signed negative (ws ++ (if ps = [] then [] else '.' :: ps) ++ 'e' :: rest))

/-- A finite number is written with its sign, and then as zero or in its shortest form. -/
theorem toList_text_finite (negative : Bool) (ticks : Nat) :
    (text (.finite negative ticks)).toList =
      signed negative
        (if ticks = 0 then "0.0" else decimalText (shortest negative ticks)).toList := by
  unfold text
  rw [String.toList_append]
  cases negative <;> rfl

/-- **How a number is written**: with a point, and then it is read from its text; with an exponent;
or as an infinity. -/
theorem text_cases {x : Binary64} (hx : x.IsDouble) :
    (∃ negative ws ps, IsPointed x.text negative ws ps ∧ fraction x.text = .ok x) ∨
      (∃ negative ws ps, IsScientific x.text negative ws ps) ∨
      ∃ negative, x = .infinite negative := by
  cases x with
  | infinite negative => exact .inr (.inr ⟨negative, rfl⟩)
  | finite negative ticks =>
      have htext := toList_text_finite negative ticks
      -- zero has no first digit, and is written in its own way
      by_cases hzero : ticks = 0
      · subst hzero
        rw [if_pos rfl] at htext
        have hpointed : text (.finite negative 0) =
            String.ofList (signed negative (['0'] ++ '.' :: ['0'])) := by
          rw [← String.ofList_toList (s := text _), htext]
          rfl
        have hdigits : IsDigits ['0'] := isDigits_replicate 1
        refine .inl ⟨negative, ['0'], ['0'],
          ⟨⟨by decide, hdigits⟩, ⟨by decide, hdigits⟩, hpointed⟩, ?_⟩
        rw [hpointed, fraction_of_digits negative (by decide) hdigits hdigits]
        rfl
      · have hpos : 0 < ticks := Nat.pos_of_ne_zero hzero
        have hread := toBinary64_shortest negative hpos hx
        have hd : 0 < (shortest negative ticks).digits := by
          refine Nat.pos_of_ne_zero fun hd => ?_
          rw [Decimal.toBinary64, hd] at hread
          cases hread
          exact hzero rfl
        rw [if_neg hzero] at htext
        rcases decimalText_cases hd with
          ⟨ws, ps, hws, hps, hw, hp, hwrites, hdecimal⟩ | ⟨ws, ps, rest, hws, hw, hp, hdecimal⟩
        · have hpointed : text (.finite negative ticks) =
              String.ofList (signed negative (ws ++ '.' :: ps)) := by
            rw [← hdecimal, ← htext, String.ofList_toList]
          refine .inl ⟨negative, ws, ps, ⟨⟨hws, hw⟩, ⟨hps, hp⟩, hpointed⟩, ?_⟩
          rw [hpointed, fraction_of_digits negative hws hw hp, hwrites negative, hread]
        · refine .inr (.inl ⟨negative, ws, ps, ⟨hws, hw⟩, hp, rest, ?_⟩)
          rw [← hdecimal, ← htext, String.ofList_toList]

end Binary64

end Schemata
