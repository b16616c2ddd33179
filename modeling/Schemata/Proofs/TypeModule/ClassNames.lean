import Schemata.Proofs.Schema.Accepted
import Schemata.Proofs.Text.Case
import Schemata.TypeModule

/-!
# Proofs — type modules — names of classes

What the name of a class keeps of the name that it is made of: the words, told apart by the letters
that they begin with.  An underscore before a small letter and a capital in the place of both are
read alike, and any other underscore is lost (`wordForm`).

* `className_eq_iff`: two names give one class just if they have the same words.
* `className_append`: names that are joined by an underscore give the name of the one class before
  that of the other.
* `eq_of_className_eq`: a name in snake case is found again from the class, if that has no digits.
-/

namespace Schemata

open Text

/-- Letters, digits and underscores. -/
def IsPlainName (name : String) : Prop := ∀ c ∈ name.toList, Shape.isWordPart c = true

instance (name : String) : Decidable (IsPlainName name) :=
  decidable_of_iff (name.toList.all Shape.isWordPart = true) List.all_eq_true

/-- A text without a line break. -/
def IsOneLine (text : String) : Prop := '\n' ∉ text.toList

instance (text : String) : Decidable (IsOneLine text) :=
  inferInstanceAs (Decidable ('\n' ∉ text.toList))

theorem IsPlainName.isOneLine {text : String} (h : IsPlainName text) : IsOneLine text :=
  fun hbreak => absurd (h _ hbreak) (by decide)

theorem Lexeme.IsWord.isOneLine {name : String} (h : Lexeme.IsWord name) : IsOneLine name := by
  obtain ⟨c, cs, hname, hc, hcs⟩ := h
  intro hbreak
  rcases List.mem_cons.mp (hname ▸ hbreak) with rfl | hmem
  · exact absurd hc (by decide)
  · exact absurd (hcs _ hmem) (by decide)

theorem Shape.IsWord.isPlain {name : String} (h : Shape.IsWord name) : IsPlainName name := by
  obtain ⟨c, cs, hname, hc, hcs⟩ := h
  unfold IsPlainName
  rw [hname]
  exact List.forall_mem_cons.mpr ⟨Shape.isWordPart_of_isWordStart hc, hcs⟩

/-! ### Letters -/

section

variable {c : Char}

theorem isWordPart_iff : Shape.isWordPart c = true ↔
    c.isUpper = true ∨ c.isLower = true ∨ c.isDigit = true ∨ c = '_' := by
  unfold Shape.isWordPart Char.isAlphanum Char.isAlpha
  rw [Bool.or_eq_true, Bool.or_eq_true, Bool.or_eq_true, beq_iff_eq, or_assoc, or_assoc]

/-- The characters of words are ASCII. -/
theorem lt_of_isWordPart (h : Shape.isWordPart c = true) : c.toNat < 128 := by
  rcases isWordPart_iff.mp h with h | h | h | rfl
  · have hrange := isUpper_iff.mp h
    omega
  · have hrange := isLower_iff.mp h
    omega
  · have hrange := isDigit_iff.mp h
    omega
  · decide

end

/-! ### The name of a class, letter by letter -/

/-- The letters of the name of a class: a letter that begins a word is a capital. -/
def camel (begins : Bool) : List Char → List Char
  | [] => []
  | c :: cs =>
    if c = '_' then camel true cs
    else (if begins then c.toUpper else c) :: camel false cs

/-- A word with a capital at its front. -/
def capitalized : List Char → List Char
  | [] => []
  | c :: cs => c.toUpper :: cs

/-- A capitalized text has its first letter in upper case and the others in lower case. -/
theorem toList_capitalize {cs : List Char} (h : ∀ c ∈ cs, c.toNat < 128) :
    (capitalize (String.ofList cs)).toList = capitalized cs := by
  unfold capitalize
  rw [String.toList_ofList]
  cases cs with
  | nil => rfl
  | cons c cs =>
      dsimp only
      rw [upperChars_of_ascii (h c List.mem_cons_self), String.toList_ofList]
      rfl

/-- Of the parts between underscores, the first goes on with what was begun, and each other one
begins a word. -/
theorem camel_of_splitOn {cs p : List Char} {ps : List (List Char)}
    (h : splitOn '_' cs = p :: ps) :
    camel true cs = capitalized p ++ ps.flatMap capitalized ∧
      camel false cs = p ++ ps.flatMap capitalized := by
  induction cs generalizing p ps with
  | nil =>
      cases h
      exact ⟨rfl, rfl⟩
  | cons c cs ih =>
      cases hsplit : splitOn '_' cs with
      | nil => exact absurd hsplit (splitOn_ne_nil '_' cs)
      | cons q qs =>
          obtain ⟨hbegins, hgoes⟩ := ih hsplit
          rw [splitOn, hsplit] at h
          dsimp only at h
          by_cases hc : c = '_'
          · rw [if_pos hc] at h
            cases h
            rw [camel, camel, if_pos hc, if_pos hc, hbegins]
            exact ⟨rfl, rfl⟩
          · rw [if_neg hc] at h
            cases h
            rw [camel, camel, if_neg hc, if_neg hc, hgoes]
            exact ⟨rfl, rfl⟩

/-- The name of a class is in camel case. -/
theorem toList_className {name : String} (h : IsPlainName name) :
    (className name).toList = camel true name.toList := by
  have hhyphen : name.toList.map (fun c => if c = '-' then '_' else c) = name.toList := by
    refine (List.map_congr_left fun c hc => if_neg ?_).trans (List.map_id _)
    rintro rfl
    exact absurd (h _ hc) (by decide)
  have hcapitalize : ∀ p ∈ splitOn '_' name.toList,
      (capitalize (String.ofList p)).toList = capitalized p := fun p hp =>
    toList_capitalize fun c hc => lt_of_isWordPart (h c (subset_of_mem_splitOn hp hc))
  unfold className
  dsimp only
  rw [hhyphen, String.toList_join, List.flatMap_map]
  cases hsplit : splitOn '_' name.toList with
  | nil => exact absurd hsplit (splitOn_ne_nil '_' _)
  | cons p ps =>
      rw [(camel_of_splitOn hsplit).1, ← List.flatMap_cons]
      rw [hsplit] at hcapitalize
      exact List.flatMap_congr hcapitalize

/-- What comes after an underscore begins a word. -/
theorem camel_append (begins : Bool) (cs ds : List Char) :
    camel begins (cs ++ '_' :: ds) = camel begins cs ++ camel true ds := by
  induction cs generalizing begins with
  | nil => rfl
  | cons c cs ih =>
      rw [List.cons_append, camel, camel, ih, ih]
      split <;> rfl

theorem IsPlainName.append {a b : String} (ha : IsPlainName a) (hb : IsPlainName b) :
    IsPlainName (a ++ b) := by
  unfold IsPlainName
  rw [String.toList_append]
  exact fun c hc => (List.mem_append.mp hc).elim (ha c) (hb c)

theorem IsPlainName.append_underscore {a b : String} (ha : IsPlainName a) (hb : IsPlainName b) :
    IsPlainName (a ++ "_" ++ b) := (ha.append (by decide)).append hb

/-- **Names joined** by an underscore: the name of the one class, and then that of the other. -/
theorem className_append {a b : String} (ha : IsPlainName a) (hb : IsPlainName b) :
    className (a ++ "_" ++ b) = className a ++ className b := by
  apply String.toList_inj.mp
  have hunderscore : "_".toList = ['_'] := rfl
  rw [toList_className (ha.append_underscore hb), String.toList_append, String.toList_append,
    hunderscore, List.append_assoc, List.singleton_append, camel_append, String.toList_append,
    toList_className ha, toList_className hb]

/-- Letters, digits and underscores give a class of such characters. -/
theorem isPlain_camel {begins : Bool} {cs : List Char}
    (h : ∀ c ∈ cs, Shape.isWordPart c = true) :
    ∀ c ∈ camel begins cs, Shape.isWordPart c = true := by
  induction cs generalizing begins with
  | nil => nofun
  | cons c cs ih =>
      obtain ⟨hc, hcs⟩ := List.forall_mem_cons.mp h
      rw [camel]
      split
      · exact ih hcs
      · refine List.forall_mem_cons.mpr ⟨?_, ih hcs⟩
        cases begins with
        | false => exact hc
        | true =>
            rw [if_pos rfl]
            cases hlow : c.isLower with
            | true => exact isWordPart_iff.mpr (.inl (isUpper_toUpper_iff.mpr (.inr hlow)))
            | false => rwa [toUpper_of_not_isLower hlow]

theorem IsPlainName.className {name : String} (h : IsPlainName name) :
    IsPlainName (className name) := by
  unfold IsPlainName
  rw [toList_className h]
  exact isPlain_camel h

/-! ### Words -/

/-- The letters of a name with an underscore before each word, and no others.  A word begins with a
small letter after an underscore, or with a capital, which is made small. -/
def wordLetters (begins : Bool) : List Char → List Char
  | [] => []
  | c :: cs =>
    if c = '_' then wordLetters true cs
    else if c.isUpper || begins && c.isLower then '_' :: c.toLower :: wordLetters false cs
    else c :: wordLetters false cs

/-- The words of a name, each after an underscore.  Digits begin no word. -/
def wordForm (name : String) : String := String.ofList (wordLetters true name.toList)

/-- The words can be told from the name of the class. -/
theorem wordLetters_camel (begins : Bool) (cs : List Char) :
    wordLetters false (camel begins cs) = wordLetters begins cs := by
  induction cs generalizing begins with
  | nil => rfl
  | cons c cs ih =>
      rw [camel, wordLetters]
      by_cases hc : c = '_'
      · rw [if_pos hc, if_pos hc]
        exact ih true
      rw [if_neg hc, if_neg hc]
      cases begins with
      | false =>
          rw [if_neg Bool.false_ne_true, wordLetters, if_neg hc, ih]
      | true =>
          rw [if_pos rfl, wordLetters, if_neg (mt toUpper_eq_underscore_iff.mp hc), ih,
            toLower_toUpper]
          have hbegins : (c.toUpper.isUpper || false && c.toUpper.isLower) =
              (c.isUpper || true && c.isLower) := by
            rw [Bool.false_and, Bool.or_false, Bool.true_and, Bool.eq_iff_iff, Bool.or_eq_true]
            exact isUpper_toUpper_iff
          rw [hbegins]
          split
          · rfl
          · rename_i hletter
            rw [Bool.true_and, Bool.or_eq_true, not_or] at hletter
            rw [toUpper_of_not_isLower (Bool.eq_false_iff.mpr hletter.2)]

/-- The name of the class can be told from the words. -/
theorem camel_wordLetters (begins : Bool) (cs : List Char) :
    camel false (wordLetters begins cs) = camel begins cs := by
  induction cs generalizing begins with
  | nil => rfl
  | cons c cs ih =>
      rw [camel, wordLetters]
      by_cases hc : c = '_'
      · rw [if_pos hc, if_pos hc]
        exact ih true
      rw [if_neg hc, if_neg hc]
      split
      next hletter =>
          rw [camel, if_pos rfl, camel, if_neg (mt toLower_eq_underscore_iff.mp hc), if_pos rfl, ih,
            toUpper_toLower]
          cases begins with
          | true => rw [if_pos rfl]
          | false =>
              rw [Bool.false_and, Bool.or_false] at hletter
              have hlow : c.isLower = false := by
                have hrange := isUpper_iff.mp hletter
                rw [Bool.eq_false_iff, Ne, isLower_iff]
                omega
              rw [if_neg Bool.false_ne_true, toUpper_of_not_isLower hlow]
      next hletter =>
          rw [camel, if_neg hc, if_neg Bool.false_ne_true, ih]
          cases begins with
          | false => rw [if_neg Bool.false_ne_true]
          | true =>
              rw [Bool.true_and, Bool.or_eq_true, not_or] at hletter
              rw [if_pos rfl, toUpper_of_not_isLower (Bool.eq_false_iff.mpr hletter.2)]

/-- **One class for two names**: just if they have the same words. -/
theorem className_eq_iff {a b : String} (ha : IsPlainName a) (hb : IsPlainName b) :
    className a = className b ↔ wordForm a = wordForm b := by
  rw [← String.toList_inj, toList_className ha, toList_className hb, wordForm, wordForm,
    String.ofList_inj]
  constructor
  · intro h
    rw [← wordLetters_camel, h, wordLetters_camel]
  · intro h
    rw [← camel_wordLetters, h, camel_wordLetters]

/-! ### Names in snake case -/

/-- The words of a name in snake case. -/
theorem parts_of_isSnakeCase {name : String} (hline : IsOneLine name)
    (h : isSnakeCase name = true) :
    ∀ p ∈ splitOn '_' name.toList, p ≠ [] ∧ ∀ c ∈ p, isSnakeChar c = true := by
  have hchomp : chomp name.toList = name.toList :=
    if_neg fun hlast => hline (List.mem_of_getLast? hlast)
  rw [isSnakeCase, hchomp, List.all_eq_true] at h
  intro p hp
  have hpart := h p hp
  rw [Bool.and_eq_true, Bool.not_eq_true', List.isEmpty_eq_false_iff, List.all_eq_true] at hpart
  exact hpart

/-- A name in snake case is a plain name. -/
theorem isPlain_of_isSnakeCase {name : String} (hline : IsOneLine name)
    (h : isSnakeCase name = true) : IsPlainName name := by
  intro c hc
  by_cases hunderscore : c = '_'
  · rw [hunderscore]
    rfl
  · obtain ⟨p, hp, hcp⟩ := exists_mem_splitOn hc hunderscore
    have hsnake := (parts_of_isSnakeCase hline h p hp).2 c hcp
    rw [isSnakeChar, Bool.or_eq_true] at hsnake
    exact isWordPart_iff.mpr (.inr (hsnake.imp_right .inl))

/-- Each word in small letters is found again, the first one if there is one. -/
theorem wordLetters_of_splitOn {cs p : List Char} {ps : List (List Char)}
    (h : splitOn '_' cs = p :: ps) (hp : ∀ c ∈ p, c.isLower = true)
    (hps : ∀ q ∈ ps, q ≠ [] ∧ ∀ c ∈ q, c.isLower = true) :
    wordLetters false cs = cs ∧ (p ≠ [] → wordLetters true cs = '_' :: cs) := by
  induction cs generalizing p ps with
  | nil =>
      cases h
      exact ⟨rfl, fun hne => absurd rfl hne⟩
  | cons c cs ih =>
      cases hsplit : splitOn '_' cs with
      | nil => exact absurd hsplit (splitOn_ne_nil '_' cs)
      | cons q qs =>
          rw [splitOn, hsplit] at h
          dsimp only at h
          by_cases hc : c = '_'
          · rw [if_pos hc] at h
            cases h
            obtain ⟨hq, hqs⟩ := List.forall_mem_cons.mp hps
            obtain ⟨-, hbegins⟩ := ih hsplit hq.2 hqs
            refine ⟨?_, fun hne => absurd rfl hne⟩
            rw [wordLetters, if_pos hc, hbegins hq.1, hc]
          · rw [if_neg hc] at h
            cases h
            obtain ⟨hlow, hq⟩ := List.forall_mem_cons.mp hp
            obtain ⟨hgoes, -⟩ := ih hsplit hq hps
            have hrange := isLower_iff.mp hlow
            have hup : c.isUpper = false := by
              rw [Bool.eq_false_iff, Ne, isUpper_iff]
              omega
            have hsmall : c.toLower = c := by
              rw [← Char.toNat_inj, toNat_toLower, if_neg (by omega)]
            refine ⟨?_, fun _ => ?_⟩
            · rw [wordLetters, if_neg hc, hup, Bool.false_and, Bool.or_false,
                if_neg Bool.false_ne_true, hgoes]
            · rw [wordLetters, if_neg hc, hlow, Bool.true_and, Bool.or_true, if_pos rfl, hsmall,
                hgoes]

/-- A digit is a letter of the words that it stands in. -/
theorem mem_wordLetters_of_digit (begins : Bool) {c : Char} {cs : List Char} (hc : c ∈ cs)
    (hdigit : c.isDigit = true) : c ∈ wordLetters begins cs := by
  have hrange := isDigit_iff.mp hdigit
  induction cs generalizing begins with
  | nil => cases hc
  | cons d cs ih =>
      rw [wordLetters]
      rcases List.mem_cons.mp hc with rfl | hc
      · have hup : c.isUpper = false := by
          rw [Bool.eq_false_iff, Ne, isUpper_iff]
          omega
        have hlow : c.isLower = false := by
          rw [Bool.eq_false_iff, Ne, isLower_iff]
          omega
        have hunderscore : c ≠ '_' := by
          rintro rfl
          exact absurd hdigit (by decide)
        rw [if_neg hunderscore, hup, hlow, Bool.and_false, Bool.or_false,
          if_neg Bool.false_ne_true]
        exact List.mem_cons_self
      · split
        · exact ih true hc
        · split
          · exact List.mem_cons_of_mem _ (List.mem_cons_of_mem _ (ih false hc))
          · exact List.mem_cons_of_mem _ (ih false hc)

/-- A name in snake case without digits is its own word form, behind an underscore. -/
theorem wordLetters_of_isSnakeCase {name : String} (hline : IsOneLine name)
    (h : isSnakeCase name = true) (hdigits : ∀ c ∈ name.toList, c.isDigit = false) :
    wordLetters true name.toList = '_' :: name.toList := by
  have hparts : ∀ p ∈ splitOn '_' name.toList, p ≠ [] ∧ ∀ c ∈ p, c.isLower = true := by
    intro p hp
    obtain ⟨hne, hsnake⟩ := parts_of_isSnakeCase hline h p hp
    refine ⟨hne, fun c hc => ?_⟩
    have hchar := hsnake c hc
    rwa [isSnakeChar, hdigits c (subset_of_mem_splitOn hp hc), Bool.or_false] at hchar
  cases hsplit : splitOn '_' name.toList with
  | nil => exact absurd hsplit (splitOn_ne_nil '_' _)
  | cons p ps =>
      rw [hsplit] at hparts
      obtain ⟨hp, hps⟩ := List.forall_mem_cons.mp hparts
      exact (wordLetters_of_splitOn hsplit hp.2 hps).2 hp.1

/-- **Names in snake case** are the same if they give one class and one of them has no digits. -/
theorem eq_of_className_eq {a b : String} (ha : IsOneLine a) (hb : IsOneLine b)
    (hasnake : isSnakeCase a = true) (hbsnake : isSnakeCase b = true)
    (hdigits : ∀ c ∈ b.toList, c.isDigit = false) (h : className a = className b) : a = b := by
  have hwords : wordLetters true a.toList = '_' :: b.toList := by
    rw [← wordLetters_of_isSnakeCase hb hbsnake hdigits]
    exact String.ofList_inj.mp ((className_eq_iff (isPlain_of_isSnakeCase ha hasnake)
      (isPlain_of_isSnakeCase hb hbsnake)).mp h)
  have hadigits : ∀ c ∈ a.toList, c.isDigit = false := by
    intro c hc
    rw [Bool.eq_false_iff]
    intro hdigit
    have hmem := mem_wordLetters_of_digit true hc hdigit
    rw [hwords] at hmem
    rcases List.mem_cons.mp hmem with rfl | hmem
    · exact absurd hdigit (by decide)
    · exact absurd (hdigits c hmem) (by simp [hdigit])
  rw [wordLetters_of_isSnakeCase ha hasnake hadigits] at hwords
  exact String.toList_inj.mp (List.cons.inj hwords).2

end Schemata
