import Schemata.Proofs.Number.Reading

/-!
# Proofs — numbers — which numerals are numbers

The scanner takes digits of every kind for numerals (`Numeral.IsWritten`), but a digit that only
looks like one counts for nothing in positional notation, and there is a limit to the digits of an
integer.  `Literal.exists_ofNumeral_iff` says which numerals are numbers.
-/

namespace Schemata

open Text

/-! ### Digits of every kind -/

/-- The blank characters, by their numbers. -/
def blankNumbers : List Nat :=
  [9, 10, 11, 12, 13, 28, 29, 30, 31, 32, 0x85, 0xA0, 0x1680] ++ List.range' 0x2000 11 ++
    [0x2028, 0x2029, 0x202F, 0x205F, 0x3000]

section

variable {c : Char}

/-- A digit is no blank. -/
theorem isBlank_of_isDigit (h : isDigit c = true) : isBlank c = false := by
  rw [← Bool.not_eq_true]
  intro hblank
  have hmem : c.toNat ∈ blankNumbers := by
    simp [isBlank, blankNumbers] at hblank ⊢
    omega
  have hnone : ∀ n ∈ blankNumbers, (decimalZeros.find? fun z => z ≤ n && n < z + 10) = none ∧
      within ornamentalDigits n = false := by
    decide
  obtain ⟨hdecimal, hornament⟩ := hnone _ hmem
  unfold isDigit isDecimal decimalValue? at h
  split at h
  · have := isDigit_iff.mp h
    simp [isBlank] at hblank
    omega
  · simp [hdecimal, hornament] at h

theorem ne_of_isDigit {d : Char} (h : isDigit c = true) (hd : isDigit d = false) : c ≠ d :=
  fun hcd => by rw [hcd, hd] at h; cases h

/-- No digit is a letter in small print. -/
theorem toLower_ne_of_isDigit (h : isDigit c = true) : c.toLower ≠ 'i' := by
  unfold Char.toLower
  split
  next hletter =>
      have hlow : 65 ≤ c.toNat := hletter.1
      have hhigh : c.toNat ≤ 90 := hletter.2
      rw [isDigit_of_ascii (by omega), isDigit_iff] at h
      omega
  next => exact ne_of_isDigit h (by decide)

end

namespace Numeral

/-- A row of digits, decimal or not. -/
def IsRun (cs : List Char) : Prop := cs ≠ [] ∧ ∀ c ∈ cs, isDigit c = true

/-- A numeral as the scanner takes it: digits, and perhaps a point and digits after it. -/
def IsWritten (cs : List Char) : Prop :=
  IsRun cs ∨ ∃ ws ps, IsRun ws ∧ IsRun ps ∧ cs = ws ++ '.' :: ps

variable {cs ws ps : List Char}

/-- A run of digits has no sign. -/
theorem splitSign_of_isRun (h : IsRun ws) (rest : List Char) :
    splitSign (ws ++ rest) = (false, ws ++ rest) := by
  obtain ⟨hne, hdigits⟩ := h
  obtain ⟨c, ds, rfl⟩ := List.exists_cons_of_ne_nil hne
  have hc := hdigits c List.mem_cons_self
  rw [List.cons_append]
  unfold splitSign
  split
  next heq => cases heq; exact absurd rfl (ne_of_isDigit hc (by decide))
  next heq => cases heq; exact absurd rfl (ne_of_isDigit hc (by decide))
  next => rfl

theorem core_of_not_isBlank (h : ∀ c ∈ cs, isBlank c = false) : core (String.ofList cs) = cs := by
  have hcore := @core_signed false cs h
  exact hcore

theorem length_digitValues (h : ∀ c ∈ cs, isDecimal c = true) :
    (digitValues cs).length = cs.length := by
  unfold digitValues
  induction cs with
  | nil => rfl
  | cons c cs ih =>
      obtain ⟨hc, hcs⟩ := List.forall_mem_cons.mp h
      obtain ⟨v, hv⟩ := Option.isSome_iff_exists.mp hc
      rw [List.filterMap_cons_some hv, List.length_cons, ih hcs, List.length_cons]

/-- Digits of every kind leave a score out of the decimal ones at their front. -/
theorem takeWhile_run (h : ∀ c ∈ cs, isDigit c = true) :
    cs.takeWhile (fun c => isDecimal c || c == '_') = cs.takeWhile isDecimal := by
  induction cs with
  | nil => rfl
  | cons c cs ih =>
      obtain ⟨hc, hcs⟩ := List.forall_mem_cons.mp h
      have hscore : (c == '_') = false := beq_eq_false_iff_ne.mpr (ne_of_isDigit hc (by decide))
      rw [List.takeWhile_cons, List.takeWhile_cons, hscore, Bool.or_false, ih hcs]

theorem not_mem_of_isDigit {d : Char} (h : ∀ c ∈ cs, isDigit c = true) (hd : isDigit d = false) :
    d ∉ cs :=
  fun hmem => ne_of_isDigit (h d hmem) hd rfl

/-- Digits are an integer if all of them are decimal and there are not too many. -/
theorem integer_ok_iff (h : IsRun cs) :
    (∃ n, integer (String.ofList cs) = .ok n) ↔
      (∀ c ∈ cs, isDecimal c = true) ∧ cs.length ≤ integerDigitLimit := by
  obtain ⟨hne, hdigits⟩ := h
  have hsign := splitSign_of_isRun ⟨hne, hdigits⟩ []
  rw [List.append_nil] at hsign
  unfold integer
  rw [core_of_not_isBlank fun c hc => isBlank_of_isDigit (hdigits c hc), hsign]
  dsimp only
  rw [takeWhile_run hdigits]
  constructor
  · rintro ⟨n, hn⟩
    split at hn
    · cases hn
    split at hn
    · cases hn
    next hlimit =>
      split at hn
      · cases hn
      next hlen =>
          -- a digit that is not decimal would be left over
          have hall : ∀ c ∈ cs, isDecimal c = true := by
            have hpre := List.takeWhile_prefix (l := cs) isDecimal
            have heq : cs.takeWhile isDecimal = cs :=
              hpre.eq_of_length (Nat.le_antisymm hpre.length_le (Nat.not_lt.mp hlen))
            exact List.takeWhile_eq_self_iff.mp heq
          rw [List.takeWhile_eq_self_iff.mpr hall, length_digitValues hall] at hlimit
          exact ⟨hall, Nat.not_lt.mp hlimit⟩
  · rintro ⟨hall, hlen⟩
    rw [List.takeWhile_eq_self_iff.mpr hall]
    have hsome : (digitValues cs).isEmpty = false := by
      rw [List.isEmpty_eq_false_iff, ← List.length_pos_iff, length_digitValues hall]
      exact List.length_pos_iff.mpr hne
    have hscore : underscoresFit false cs = true :=
      underscoresFit_of_not_mem (not_mem_of_isDigit hdigits (by decide))
    rw [hsome, hscore, length_digitValues hall, if_neg (by decide), if_neg (Nat.not_lt.mpr hlen),
      if_neg (Nat.lt_irrefl _)]
    exact ⟨_, rfl⟩

/-- A digit begins no exponent. -/
theorem exponent?_of_isDigit {c : Char} (h : isDigit c = true) (cs : List Char) :
    exponent? (c :: cs) = none := by
  have hsmall : c ≠ 'e' := ne_of_isDigit h (by decide)
  have hlarge : c ≠ 'E' := ne_of_isDigit h (by decide)
  simp [exponent?, hsmall, hlarge]

/-- A name of an infinity begins with a letter. -/
theorem infinityNames_of_isDigit {c : Char} (h : isDigit c = true) (cs : List Char) :
    infinityNames.contains (String.ofList ((c :: cs).map Char.toLower)) = false := by
  rw [← Bool.not_eq_true, List.contains_iff_mem]
  intro hmem
  refine toLower_ne_of_isDigit h ?_
  simp only [infinityNames, List.mem_cons, List.not_mem_nil, or_false] at hmem
  rcases hmem with hmem | hmem <;> simpa using congrArg (fun s => s.toList.head?) hmem

/-- The digits at the front that are not decimal, if there are any, come before a point. -/
theorem dropWhile_run (h : ∀ c ∈ ws, isDigit c = true) (hnot : ¬ ∀ c ∈ ws, isDecimal c = true)
    (rest : List Char) :
    ∃ d ds, (ws ++ rest).dropWhile isDecimal = d :: ds ∧ isDigit d = true := by
  induction ws with
  | nil => exact absurd (fun _ hc => absurd hc List.not_mem_nil) hnot
  | cons c cs ih =>
      obtain ⟨hc, hcs⟩ := List.forall_mem_cons.mp h
      rw [List.cons_append, List.dropWhile_cons]
      split
      next hdecimal => exact ih hcs fun hall => hnot (List.forall_mem_cons.mpr ⟨hdecimal, hall⟩)
      next => exact ⟨c, _, rfl, hc⟩

/-- Digits with a point between them are a number if all of them are decimal. -/
theorem fraction_ok_iff (hw : IsRun ws) (hp : IsRun ps) :
    (∃ x, fraction (String.ofList (ws ++ '.' :: ps)) = .ok x) ↔
      ∀ c ∈ ws ++ ps, isDecimal c = true := by
  have hsome : (∃ x, fraction (String.ofList (ws ++ '.' :: ps)) = .ok x) ↔
      (fraction? (String.ofList (ws ++ '.' :: ps))).isSome := by
    unfold fraction
    cases fraction? (String.ofList (ws ++ '.' :: ps)) <;> simp
  have hmem : ∀ c ∈ ws ++ '.' :: ps, isDigit c = true ∨ c = '.' := fun c hc => by
    rcases List.mem_append.mp hc with hc | hc
    · exact .inl (hw.2 c hc)
    · exact (List.mem_cons.mp hc).symm.imp_left (hp.2 c)
  have hscore : '_' ∉ ws ++ '.' :: ps := fun h => (hmem _ h).elim
    (fun h => absurd h (by decide)) (fun h => absurd h (by decide))
  have hblank : ∀ c ∈ ws ++ '.' :: ps, isBlank c = false := fun c hc => by
    rcases hmem c hc with hc | rfl
    · exact isBlank_of_isDigit hc
    · decide
  have hfilter : (ws ++ '.' :: ps).filter (· != '_') = ws ++ '.' :: ps :=
    List.filter_eq_self.mpr fun c hc => by
      rw [bne_iff_ne]
      exact fun h => hscore (h ▸ hc)
  obtain ⟨c, cs, hcs⟩ := List.exists_cons_of_ne_nil hw.1
  have hinf : infinityNames.contains
      (String.ofList ((ws ++ '.' :: ps).map Char.toLower)) = false := by
    rw [hcs]
    exact infinityNames_of_isDigit (hw.2 c (hcs ▸ List.mem_cons_self)) _
  rw [hsome]
  unfold fraction?
  rw [core_of_not_isBlank hblank, splitSign_of_isRun hw]
  dsimp only
  rw [hinf, underscoresFit_of_not_mem hscore, hfilter, if_neg (by decide), if_neg (by decide)]
  by_cases hwhole : ∀ c ∈ ws, isDecimal c = true
  · have htake : (ws ++ '.' :: ps).takeWhile isDecimal = ws := by
      rw [List.takeWhile_append_of_pos hwhole, List.takeWhile_cons_of_neg (by decide),
        List.append_nil]
    have hdrop : (ws ++ '.' :: ps).dropWhile isDecimal = '.' :: ps := by
      rw [List.dropWhile_append_of_pos hwhole, List.dropWhile_cons_of_neg (by decide)]
    have hempty : ws.isEmpty = false := List.isEmpty_eq_false_iff.mpr hw.1
    rw [htake, hdrop]
    show (if ws.isEmpty && (ps.takeWhile isDecimal).isEmpty then none
      else (exponent? (ps.dropWhile isDecimal)).map _).isSome ↔ _
    rw [hempty, Bool.false_and, if_neg (by decide), Option.isSome_map, List.forall_mem_append,
      and_iff_right hwhole]
    constructor
    · intro hexponent
      cases htail : ps.dropWhile isDecimal with
      | nil => exact List.dropWhile_eq_nil_iff.mp htail
      | cons d ds =>
          have hd : d ∈ ps := (List.dropWhile_suffix isDecimal).subset (htail ▸ List.mem_cons_self)
          rw [htail, exponent?_of_isDigit (hp.2 d hd)] at hexponent
          cases hexponent
    · intro hplaces
      rw [List.dropWhile_eq_nil_iff.mpr hplaces]
      rfl
  · obtain ⟨d, ds, hdrop, hd⟩ := dropWhile_run hw.2 hwhole ('.' :: ps)
    have hpoint : d ≠ '.' := ne_of_isDigit hd (by decide)
    refine iff_of_false (fun hexponent => ?_) fun hall => hwhole (List.forall_mem_append.mp hall).1
    rw [hdrop] at hexponent
    split at hexponent
    next heq => exact hpoint (List.cons.inj heq).1
    next =>
        split at hexponent
        · cases hexponent
        · rw [Option.isSome_map, exponent?_of_isDigit hd] at hexponent
          cases hexponent

end Numeral

/-- **A numeral is a number** if all its digits are decimal ones, and no more than are read where it
has no point. -/
theorem Literal.exists_ofNumeral_iff {text : String} (h : Numeral.IsWritten text.toList) :
    (∃ v, ofNumeral text = .ok v) ↔
      (∀ c ∈ text.toList, c = '.' ∨ isDecimal c = true) ∧
        ('.' ∉ text.toList → text.toList.length ≤ integerDigitLimit) := by
  have hread : (∃ v, ofNumeral text = .ok v) ↔
      if text.toList.contains '.' then ∃ x, Numeral.fraction text = .ok x
      else ∃ n, Numeral.integer text = .ok n := by
    simp only [ofNumeral_ok_iff]
    split
    · exact ⟨fun ⟨_, x, hx, _⟩ => ⟨x, hx⟩, fun ⟨x, hx⟩ => ⟨_, x, hx, rfl⟩⟩
    · exact ⟨fun ⟨_, n, hn, _⟩ => ⟨n, hn⟩, fun ⟨n, hn⟩ => ⟨_, n, hn, rfl⟩⟩
  have hpoint : ∀ {cs : List Char}, Numeral.IsRun cs → '.' ∉ cs := fun hcs =>
    Numeral.not_mem_of_isDigit hcs.2 (by decide)
  have hplain : ∀ {cs : List Char}, Numeral.IsRun cs →
      ((∀ c ∈ cs, isDecimal c = true) ↔ ∀ c ∈ cs, c = '.' ∨ isDecimal c = true) := fun hcs => by
    refine forall₂_congr fun c hc => (or_iff_right ?_).symm
    rintro rfl
    exact hpoint hcs hc
  rw [hread, ← List.contains_iff_mem]
  rcases h with hrun | ⟨ws, ps, hws, hps, hcs⟩
  · have hnone : text.toList.contains '.' = false := by
      rw [← Bool.not_eq_true, List.contains_iff_mem]
      exact hpoint hrun
    have hinteger := Numeral.integer_ok_iff hrun
    rw [String.ofList_toList] at hinteger
    rw [hnone, if_neg (by decide), hinteger, hplain hrun]
    simp
  · have hsome : text.toList.contains '.' = true := by
      rw [List.contains_iff_mem, hcs]
      simp
    have hfraction := Numeral.fraction_ok_iff hws hps
    rw [← hcs, String.ofList_toList] at hfraction
    rw [hsome, if_pos rfl, hfraction, and_iff_left (fun h => absurd rfl h), hcs,
      List.forall_mem_append, List.forall_mem_append, List.forall_mem_cons, hplain hws, hplain hps]
    simp

end Schemata
