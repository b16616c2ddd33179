import Schemata.Proofs.Text.Layout
import Schemata.Shape.Reading
import Schemata.Token.Lexeme

/-!
# Proofs — shapes — what is written is read

The text of a shape: its marks (`Shape.WritesEntries`) with blanks between them (`Shape.LaidOut`),
in braces.  Reading it gives the shape again, but for the texts and places that a shape keeps
(`Shape.content`).

* `Shape.ofText_of_writes`, `Shape.ofText_of_isText` — so it is, if no key stands twice in one object.
* `Shape.blockTail_of_isText` — the scanner takes the text up to its last brace, and no further.
-/

namespace Schemata

open Text

/-! ### Shapes but for texts and places -/

mutual

/-- The shape without the text it was read from and the place of it. -/
def Shape.content : Shape → Shape
  | ⟨_, isArray, entries, _⟩ => ⟨"", isArray, ShapeEntry.contentList entries, .nowhere⟩

/-- The entry without the texts and the places in its shape. -/
def ShapeEntry.content : ShapeEntry → ShapeEntry
  | ⟨name, typeName, isOptional, isArray, shape⟩ =>
    ⟨name, typeName, isOptional, isArray, Shape.contentOption shape⟩

/-- The entries without the texts and the places in them. -/
def ShapeEntry.contentList : List ShapeEntry → List ShapeEntry
  | [] => []
  | e :: es => e.content :: ShapeEntry.contentList es

def Shape.contentOption : Option Shape → Option Shape
  | none => none
  | some s => some s.content

end

namespace Shape

/-! ### Marks -/

/-- A word or a sign of a block. -/
inductive Mark where
  | word (text : List Char)
  | sign (c : Char)
  deriving DecidableEq, Repr

namespace Mark

def spelled : Mark → List Char
  | .word text => text
  | .sign c => [c]

end Mark

def Piece.mark : Piece → Mark
  | .word text _ => .word text
  | .sign c _ => .sign c

/-- A letter or an underscore, and letters, digits and underscores after it. -/
def IsWord (w : String) : Prop :=
  ∃ c cs, w.toList = c :: cs ∧ isWordStart c = true ∧ ∀ d ∈ cs, isWordPart d = true

def optionMark (isOptional : Bool) : List Mark := if isOptional then [.sign '?'] else []

def arrayMarks (isArray : Bool) : List Mark := if isArray then [.sign '[', .sign ']'] else []

/-- The marks of the entries of an object.  An entry is a key, perhaps a question mark, a colon, the
name of a type or an object in braces, and perhaps an array mark; commas and semicolons may stand
between entries. -/
inductive WritesEntries : List Mark → List ShapeEntry → Prop
  | nil : WritesEntries [] []
  | separator {c : Char} {ms : List Mark} {es : List ShapeEntry} (sign : c = ',' ∨ c = ';')
      (rest : WritesEntries ms es) : WritesEntries (.sign c :: ms) es
  | leaf {name typeName : String} {isOptional isArray : Bool} {ms : List Mark}
      {es : List ShapeEntry} (rest : WritesEntries ms es) :
      WritesEntries
        (.word name.toList :: (optionMark isOptional ++ .sign ':' :: .word typeName.toList ::
          (arrayMarks isArray ++ ms)))
        (⟨name, typeName, isOptional, isArray, none⟩ :: es)
  | object {name raw : String} {isOptional isArray : Bool} {position : Position}
      {ns ms : List Mark} {inner es : List ShapeEntry} (inside : WritesEntries ns inner)
      (rest : WritesEntries ms es) :
      WritesEntries
        (.word name.toList :: (optionMark isOptional ++ .sign ':' :: .sign '{' :: (ns ++
          .sign '}' :: (arrayMarks isArray ++ ms))))
        (⟨name, "object", isOptional, isArray, some ⟨raw, isArray, inner, position⟩⟩ :: es)

/-- The marks laid out with blanks between them, at least one where two words meet. -/
abbrev LaidOut : List Mark → List Char → Prop :=
  Laid Mark.spelled (fun gap _ => ∀ c ∈ gap, isBlank c = true)
    (fun c d => isWordPart c = true ∧ isWordPart d = true)

/-- The marks of an object: those of its entries, in braces. -/
def braced (ms : List Mark) : List Mark := .sign '{' :: (ms ++ [.sign '}'])

/-- The text writes the entries: the marks of an object of them, laid out. -/
def Writes (raw : String) (es : List ShapeEntry) : Prop :=
  ∃ ms, WritesEntries ms es ∧ LaidOut (braced ms) raw.toList

/-- The text writes the shape: the marks of its entries, laid out in braces. -/
def IsText (raw : String) (s : Shape) : Prop :=
  ∃ ms cs, WritesEntries ms s.entries ∧ LaidOut ms cs ∧ raw.toList = '{' :: (cs ++ ['}'])

/-- Keys and names of types are words, no key stands twice in one object, and a shape inside
another is an array if its entry is one. -/
inductive AreExpressible : List ShapeEntry → Prop
  | nil : AreExpressible []
  | leaf {name typeName : String} {isOptional isArray : Bool} {es : List ShapeEntry}
      (named : IsWord name) (typed : IsWord typeName) (fresh : name ∉ es.map ShapeEntry.name)
      (rest : AreExpressible es) :
      AreExpressible (⟨name, typeName, isOptional, isArray, none⟩ :: es)
  | object {name raw : String} {isOptional isArray : Bool} {position : Position}
      {inner es : List ShapeEntry} (named : IsWord name) (fresh : name ∉ es.map ShapeEntry.name)
      (inside : AreExpressible inner) (rest : AreExpressible es) :
      AreExpressible
        (⟨name, "object", isOptional, isArray, some ⟨raw, isArray, inner, position⟩⟩ :: es)

/-- What the syntax of blocks can express. -/
def IsExpressible (s : Shape) : Prop := AreExpressible s.entries

/-- Expressible entries have a writing. -/
theorem exists_writesEntries {es : List ShapeEntry} (h : AreExpressible es) :
    ∃ ms, WritesEntries ms es := by
  induction h with
  | nil => exact ⟨_, .nil⟩
  | leaf _ _ _ _ ih =>
      obtain ⟨ms, hms⟩ := ih
      exact ⟨_, .leaf hms⟩
  | object _ _ _ _ ih ih' =>
      obtain ⟨ns, hns⟩ := ih
      obtain ⟨ms, hms⟩ := ih'
      exact ⟨_, .object hns hms⟩

/-- Marks that are laid out are so in braces. -/
theorem laidOut_braced {ms : List Mark} {cs : List Char} (h : LaidOut ms cs) :
    LaidOut (braced ms) ('{' :: (cs ++ ['}'])) := by
  have hclosed : LaidOut (ms ++ [Mark.sign '}']) (cs ++ ['}']) := by
    induction h with
    | @nil gap ends => exact .cons ends (fun _ _ d hd => by cases hd) (.nil fun _ hc => by cases hc)
    | @cons m ms gap cs between apart _ ih =>
        have hapart : ∀ c ∈ m.spelled.getLast?, ∀ d ∈ (cs ++ ['}']).head?,
            ¬ (isWordPart c = true ∧ isWordPart d = true) := fun c hc d hd => by
          cases cs with
          | nil =>
              cases hd
              exact fun hclash => absurd hclash.2 (by decide)
          | cons e cs => exact apart c hc d hd
        have hlaid : LaidOut (m :: (ms ++ [.sign '}'])) (gap ++ (m.spelled ++ (cs ++ ['}']))) :=
          .cons between hapart ih
        rw [List.append_assoc, List.append_assoc]
        exact hlaid
  refine @Laid.cons _ _ _ _ _ _ [] _ nofun (fun c hc d _ => ?_) hclosed
  cases hc
  exact fun hclash => absurd hclash.1 (by decide)

theorem IsText.writes {raw : String} {s : Shape} (h : IsText raw s) : Writes raw s.entries := by
  obtain ⟨ms, cs, hwrites, hlaid, hraw⟩ := h
  exact ⟨ms, hwrites, hraw ▸ laidOut_braced hlaid⟩

/-- Every such shape has a text. -/
theorem exists_isText {s : Shape} (h : s.IsExpressible) : ∃ raw, IsText raw s := by
  obtain ⟨ms, hms⟩ := exists_writesEntries h
  have hlaid : LaidOut ms (spaced Mark.spelled ms) :=
    Laid.laid_spaced (fun _ => List.forall_mem_singleton.mpr (by decide)) (fun c h => absurd h.2 (by decide)) ms
  exact ⟨String.ofList ('{' :: (spaced Mark.spelled ms ++ ['}'])), ms, _, hms, hlaid,
    String.toList_ofList⟩

/-! ### From text to marks -/

/-- A mark as a text can have it: a word, or one of the signs. -/
def Mark.Fits : Mark → Prop
  | .word text => ∃ c cs, text = c :: cs ∧ isWordStart c = true ∧ ∀ d ∈ cs, isWordPart d = true
  | .sign c => c ∈ signs

section

variable {c : Char} {m : Mark} {ms ns : List Mark} {cs : List Char} {es : List ShapeEntry}
  {isOptional isArray : Bool}

theorem Mark.fits_sign (h : c ∈ signs) : (Mark.sign c).Fits := h

theorem isWordPart_of_isWordStart (h : isWordStart c = true) : isWordPart c = true := by
  unfold isWordStart at h
  unfold isWordPart Char.isAlphanum
  simp only [Bool.or_eq_true] at h ⊢
  exact h.elim (fun h => .inl (.inl h)) .inr

theorem fits_of_mem_optionMark (h : m ∈ optionMark isOptional) : m.Fits := by
  cases isOptional with
  | true =>
      cases List.mem_singleton.mp h
      exact Mark.fits_sign (by decide)
  | false => cases h

theorem fits_of_mem_arrayMarks (h : m ∈ arrayMarks isArray) : m.Fits := by
  cases isArray with
  | true =>
      have hmem : m = .sign '[' ∨ m = .sign ']' := by simpa [arrayMarks] using h
      rcases hmem with rfl | rfl <;> exact Mark.fits_sign (by decide)
  | false => cases h

/-- The marks of expressible entries fit. -/
theorem fits_of_writesEntries (hw : WritesEntries ms es) (hplain : AreExpressible es) :
    ∀ m ∈ ms, m.Fits := by
  induction hw with
  | nil => exact fun m hm => absurd hm List.not_mem_nil
  | separator sign rest ih =>
      refine List.forall_mem_cons.mpr ⟨?_, ih hplain⟩
      rcases sign with rfl | rfl <;> exact Mark.fits_sign (by decide)
  | leaf rest ih =>
      cases hplain with
      | leaf named typed _ hrest =>
          simp only [List.forall_mem_cons, List.forall_mem_append]
          exact ⟨named, fun _ => fits_of_mem_optionMark, Mark.fits_sign (by decide), typed,
            fun _ => fits_of_mem_arrayMarks, ih hrest⟩
  | object inside rest ih ih' =>
      cases hplain with
      | object named _ hinside hrest =>
          simp only [List.forall_mem_cons, List.forall_mem_append]
          exact ⟨named, fun _ => fits_of_mem_optionMark, Mark.fits_sign (by decide),
            Mark.fits_sign (by decide), ih hinside, Mark.fits_sign (by decide),
            fun _ => fits_of_mem_arrayMarks, ih' hrest⟩

/-- The recursion that reads a text, at a character.  `pieces` itself is not rewritten with: its
equations would take the tables of letters apart. -/
theorem pieces_cons (offset : Nat) (c : Char) (cs : List Char) :
    pieces offset (c :: cs) =
      if isBlank c then pieces (offset + 1) cs
      else if isWordStart c then
        (pieces (offset + (cs.takeWhile isWordPart).length + 1)
          (cs.drop (cs.takeWhile isWordPart).length)).map
            (.word (c :: cs.takeWhile isWordPart) offset :: ·)
      else if signs.contains c then (pieces (offset + 1) cs).map (.sign c offset :: ·)
      else .error (offset, c) := by
  conv => lhs; unfold pieces

/-- Blanks make no pieces. -/
theorem pieces_of_blank {gap : List Char} (h : ∀ c ∈ gap, isBlank c = true) (offset : Nat)
    (cs : List Char) : pieces offset (gap ++ cs) = pieces (offset + gap.length) cs := by
  induction gap generalizing offset with
  | nil => rfl
  | cons c gap ih =>
      obtain ⟨hc, hgap⟩ := List.forall_mem_cons.mp h
      rw [List.cons_append, pieces_cons, if_pos hc, ih hgap, List.length_cons, Nat.add_right_comm,
        Nat.add_assoc]

theorem pieces_of_sign (h : c ∈ signs) (offset : Nat) (cs : List Char) :
    pieces offset (c :: cs) = (pieces (offset + 1) cs).map (.sign c offset :: ·) := by
  have hall : signs.all (fun c => !isBlank c && !isWordStart c) = true := by decide
  have hkind : isBlank c = false ∧ isWordStart c = false := by
    simpa using List.all_eq_true.mp hall c h
  rw [pieces_cons, if_neg (by simp [hkind.1]), if_neg (by simp [hkind.2]),
    if_pos (List.contains_iff_mem.mpr h)]

/-- A word makes a piece, if nothing goes on with it. -/
theorem pieces_of_word {w : List Char} (hc : isWordStart c = true)
    (hw : ∀ d ∈ w, isWordPart d = true) (hcs : ∀ d ∈ cs.head?, isWordPart d = false)
    (offset : Nat) :
    pieces offset (c :: (w ++ cs)) =
      (pieces (offset + w.length + 1) cs).map (.word (c :: w) offset :: ·) := by
  have htake : (w ++ cs).takeWhile isWordPart = w := by
    rw [List.takeWhile_append_of_pos hw]
    cases cs with
    | nil => simp
    | cons d cs => rw [List.takeWhile_cons_of_neg (by simp [hcs d rfl]), List.append_nil]
  rw [pieces_cons, if_neg (by simp [isBlank_of_letter hc]), if_pos hc, htake, List.drop_left]

/-- A text of marks is cut into them again. -/
theorem pieces_of_laidOut (h : LaidOut ms cs) (hms : ∀ m ∈ ms, m.Fits) (offset : Nat) :
    ∃ ps, ps.map Piece.mark = ms ∧ pieces offset cs = .ok ps := by
  induction h generalizing offset with
  | @nil gap ends =>
      refine ⟨[], rfl, ?_⟩
      rw [← List.append_nil gap, pieces_of_blank ends]
      unfold pieces
      rfl
  | @cons m ms gap cs between apart _ ih =>
      obtain ⟨hm, hrest⟩ := List.forall_mem_cons.mp hms
      cases m with
      | sign c =>
          obtain ⟨ps, hmarks, hps⟩ := ih hrest (offset + gap.length + 1)
          refine ⟨.sign c (offset + gap.length) :: ps, by rw [List.map_cons, hmarks]; rfl, ?_⟩
          show pieces offset (gap ++ c :: cs) = _
          rw [pieces_of_blank between, pieces_of_sign hm, hps]
          rfl
      | word text =>
          obtain ⟨c, w, rfl, hc, hw⟩ := hm
          obtain ⟨ps, hmarks, hps⟩ := ih hrest (offset + gap.length + w.length + 1)
          refine ⟨.word (c :: w) (offset + gap.length) :: ps, by rw [List.map_cons, hmarks]; rfl, ?_⟩
          have hlast : ∀ d ∈ (c :: w).getLast?, isWordPart d = true := fun d hd => by
            rcases List.mem_cons.mp (List.mem_of_getLast? hd) with rfl | hd
            · exact isWordPart_of_isWordStart hc
            · exact hw d hd
          -- what comes after the word is no part of one
          have hnext : ∀ d ∈ cs.head?, isWordPart d = false := fun d hd => by
            have hsome : (c :: w).getLast? = some ((c :: w).getLast (List.cons_ne_nil c w)) :=
              List.getLast?_eq_some_getLast _
            rw [← Bool.not_eq_true]
            exact fun hpart => apart _ hsome d hd ⟨hlast _ hsome, hpart⟩
          show pieces offset (gap ++ (c :: w ++ cs)) = _
          rw [pieces_of_blank between, List.cons_append, pieces_of_word hc hw hnext, hps]
          rfl

/-! ### Braces -/

/-- How many braces are open after some marks, unless the last of them is closed on the way. -/
def depthAfter (depth : Nat) : List Mark → Option Nat
  | [] => some depth
  | .sign c :: ms =>
    if c = '{' then depthAfter (depth + 1) ms
    else if c = '}' then if depth ≤ 1 then none else depthAfter (depth - 1) ms
    else depthAfter depth ms
  | .word _ :: ms => depthAfter depth ms

theorem depthAfter_optionMark (depth : Nat) :
    depthAfter depth (optionMark isOptional ++ ms) = depthAfter depth ms := by
  cases isOptional <;> rfl

theorem depthAfter_arrayMarks (depth : Nat) :
    depthAfter depth (arrayMarks isArray ++ ms) = depthAfter depth ms := by
  cases isArray <;> rfl

/-- Entries close the braces that they open. -/
theorem depthAfter_append (h : WritesEntries ms es) {depth : Nat} (hdepth : 0 < depth) :
    depthAfter depth (ms ++ ns) = depthAfter depth ns := by
  induction h generalizing depth ns with
  | nil => rfl
  | @separator c ms es sign rest ih =>
      have hbrace : c ≠ '{' ∧ c ≠ '}' := by rcases sign with rfl | rfl <;> decide
      rw [List.cons_append, depthAfter, if_neg hbrace.1, if_neg hbrace.2, ih hdepth]
  | @leaf name typeName isOptional isArray ms es rest ih =>
      simp only [List.cons_append, List.append_assoc]
      rw [depthAfter, depthAfter_optionMark, depthAfter, if_neg (by decide), if_neg (by decide),
        depthAfter, depthAfter_arrayMarks, ih hdepth]
  | @object name raw isOptional isArray position inner ms entries es inside rest ih ih' =>
      simp only [List.cons_append, List.append_assoc]
      rw [depthAfter, depthAfter_optionMark, depthAfter, if_neg (by decide), if_neg (by decide),
        depthAfter, if_pos rfl, ih (Nat.succ_pos depth), depthAfter, if_neg (by decide), if_pos rfl,
        if_neg (by omega), Nat.succ_sub_one, depthAfter_arrayMarks, ih' hdepth]

/-- What has no braces leaves the depth of a block. -/
theorem blockTail_append {us vs : List Char} (h : ∀ c ∈ us, c ≠ '{' ∧ c ≠ '}') (depth : Nat) :
    Lexeme.blockTail depth (us ++ vs) = (Lexeme.blockTail depth vs).map (us ++ ·) := by
  induction us with
  | nil => simp
  | cons c us ih =>
      obtain ⟨hc, hus⟩ := List.forall_mem_cons.mp h
      rw [List.cons_append, Lexeme.blockTail, if_neg hc.1, if_neg hc.2, ih hus, Option.map_map]
      rfl

/-- Where marks leave braces open, the text that closes them is the text of the marks and what
closes the braces after it. -/
theorem blockTail_of_laidOut (h : LaidOut ms cs) (hms : ∀ m ∈ ms, m.Fits) {depth after : Nat}
    (hdepth : depthAfter depth ms = some after) (rest : List Char) :
    Lexeme.blockTail depth (cs ++ rest) = (Lexeme.blockTail after rest).map (cs ++ ·) := by
  have hblank : ∀ {gap : List Char}, (∀ c ∈ gap, isBlank c = true) →
      ∀ c ∈ gap, c ≠ '{' ∧ c ≠ '}' := fun hgap c hc =>
    ⟨fun h => absurd (hgap c hc) (by rw [h]; decide), fun h => absurd (hgap c hc) (by rw [h]; decide)⟩
  induction h generalizing depth with
  | nil ends =>
      cases hdepth
      exact blockTail_append (hblank ends) _
  | @cons m ms gap cs between apart _ ih =>
      obtain ⟨hm, hrest⟩ := List.forall_mem_cons.mp hms
      rw [List.append_assoc, blockTail_append (hblank between)]
      have hmap : ∀ (us : List Char) {vs : List Char} {x : Option (List Char)},
          (x.map (vs ++ ·)).map (us ++ ·) = x.map (us ++ vs ++ ·) := fun us vs x => by
        cases x <;> simp
      cases m with
      | sign c =>
          have hsign : Lexeme.blockTail depth (c :: (cs ++ rest)) =
              (Lexeme.blockTail after rest).map (c :: cs ++ ·) := by
            rw [depthAfter] at hdepth
            rw [Lexeme.blockTail]
            split at hdepth
            next hopen =>
                rw [if_pos hopen, ih hrest hdepth]
                exact hmap [c]
            next hopen =>
                split at hdepth
                next hclose =>
                    split at hdepth
                    next => cases hdepth
                    next hlast =>
                        rw [if_neg hopen, if_pos hclose, if_neg hlast, ih hrest hdepth]
                        exact hmap [c]
                next hclose =>
                    rw [if_neg hopen, if_neg hclose, ih hrest hdepth]
                    exact hmap [c]
          show (Lexeme.blockTail depth (c :: (cs ++ rest))).map _ = _
          rw [hsign, hmap]
          rfl
      | word text =>
          obtain ⟨c, w, rfl, hc, hw⟩ := hm
          have hplain : ∀ d ∈ c :: w, d ≠ '{' ∧ d ≠ '}' := fun d hd => by
            have hpart : isWordPart d = true := by
              rcases List.mem_cons.mp hd with rfl | hd
              · exact isWordPart_of_isWordStart hc
              · exact hw d hd
            exact ⟨fun h => absurd hpart (by rw [h]; decide),
              fun h => absurd hpart (by rw [h]; decide)⟩
          show (Lexeme.blockTail depth (c :: w ++ cs ++ rest)).map _ = _
          rw [List.append_assoc, blockTail_append hplain, ih hrest hdepth, hmap (c :: w),
            hmap gap]
          rfl

/-- **The scanner takes the text of a shape** up to its last brace, and no further. -/
theorem blockTail_of_isText {raw : String} {s : Shape} (h : IsText raw s) (hs : s.IsExpressible) :
    ∃ tail, raw.toList = '{' :: tail ∧
      ∀ rest, Lexeme.blockTail 1 (tail ++ rest) = some tail := by
  obtain ⟨ms, cs, hwrites, hlaid, hraw⟩ := h
  refine ⟨cs ++ ['}'], hraw, fun rest => ?_⟩
  have hdepth : depthAfter 1 ms = some 1 := by
    have hnil : depthAfter 1 (ms ++ []) = depthAfter 1 [] := depthAfter_append hwrites Nat.one_pos
    rwa [List.append_nil] at hnil
  rw [List.append_assoc,
    blockTail_of_laidOut hlaid (fits_of_writesEntries hwrites hs) hdepth]
  rfl

end

/-! ### From marks to shapes -/

/-- What is read of an object: its entries, the offset after its closing brace, and what is left. -/
def readEntries (b : Block) (seen : List String) (ps : List Piece) :
    Except ShapeFault (List ShapeEntry × Nat × List Piece) :=
  (readBody b seen ps).map fun body => (body.entries, body.stop, body.rest)

section

variable {b : Block} {seen : List String} {p : Piece} {ps qs rest : List Piece}
  {name typeName : String} {isOptional isArray : Bool}

theorem readEntries_close (h : p.isSign '}' = true) :
    readEntries b seen (p :: rest) = .ok ([], p.offset + 1, rest) := by
  rw [readEntries, readBody, if_pos h]
  rfl

theorem readEntries_separator (hclose : p.isSign '}' = false)
    (h : (p.isSign ',' || p.isSign ';') = true) :
    readEntries b seen (p :: rest) = readEntries b seen rest := by
  rw [readEntries, readBody, if_neg (by simp [hclose]), if_pos h, readEntries]
  cases readBody b seen rest <;> rfl

/-- An entry before the others that are read. -/
def consEntry (e : ShapeEntry) :
    List ShapeEntry × Nat × List Piece → List ShapeEntry × Nat × List Piece :=
  fun (es, stop, rest) => (e :: es, stop, rest)

/-- What is read of the type of an entry: its name, its shape, and what is left. -/
def readType (b : Block) (ps : List Piece) :
    Except ShapeFault (String × Option Shape × List Piece) :=
  match openBrace? ps with
  | some (first, qs) =>
    (readEntries b [] qs).map fun (es, stop, rest) =>
      ("object", some ⟨b.slice first stop, false, es, b.place first⟩, rest)
  | none => (expectWord b .expectedType ps).map fun (w, rest) => (w, none, rest)

/-- **An entry** is read as its name, its type and its mark, and then come the others. -/
theorem readEntries_entry {text : List Char} {offset : Nat} {ps₁ ps₂ ps₃ : List Piece}
    {shape : Option Shape}
    (hhead : entryHead b (.word text offset :: ps) = .ok ((name, isOptional), ps₁))
    (htype : readType b ps₁ = .ok (typeName, shape, ps₂))
    (hmark : arrayMark b ps₂ = .ok (isArray, ps₃)) (hseen : name ∉ seen) :
    readEntries b seen (.word text offset :: ps) =
      (readEntries b (name :: seen) ps₃).map (consEntry
        ⟨name, typeName, isOptional, isArray, shape.map fun s => { s with isArray }⟩) := by
  rw [readEntries, readBody, if_neg (by simp [Piece.isSign]), if_neg (by simp [Piece.isSign])]
  split
  next heq => rw [hhead] at heq; cases heq
  next heq =>
      rw [hhead] at heq
      cases heq
      unfold readType at htype
      dsimp only
      split
      next e herror =>
          split at herror
          next first qs hopen =>
              rw [hopen] at htype
              dsimp only [readEntries] at htype
              split at herror
              next hbody => rw [hbody] at htype; cases htype
              next => cases herror
          next hopen =>
              rw [hopen] at htype
              dsimp only at htype
              split at herror
              next hword => rw [hword] at htype; cases htype
              next => cases herror
      next type hok =>
          have hall : type.typeName = typeName ∧ type.shape = shape ∧ type.rest = ps₂ := by
            split at hok
            next first qs hopen =>
                rw [hopen] at htype
                dsimp only [readEntries] at htype
                split at hok
                next => cases hok
                next hbody =>
                    rw [hbody] at htype
                    cases hok
                    cases htype
                    exact ⟨rfl, rfl, rfl⟩
            next hopen =>
                rw [hopen] at htype
                dsimp only at htype
                split at hok
                next => cases hok
                next hword =>
                    rw [hword] at htype
                    cases hok
                    cases htype
                    exact ⟨rfl, rfl, rfl⟩
          obtain ⟨rfl, rfl, rfl⟩ := hall
          split
          next herror => rw [hmark] at herror; cases herror
          next hread =>
              rw [hmark] at hread
              cases hread
              rw [if_neg (by simpa using hseen), readEntries]
              cases readBody b (name :: seen) ps₃ <;> rfl

theorem isSign_of_mark {c d : Char} (h : p.mark = .sign c) : p.isSign d = (c == d) := by
  cases p with
  | word => cases h
  | sign =>
      cases h
      rfl

/-- A piece with the mark of a word is that word. -/
theorem exists_word_of_mark {text : List Char} (h : p.mark = .word text) :
    ∃ offset, p = .word text offset := by
  cases p with
  | word _ offset =>
      cases h
      exact ⟨offset, rfl⟩
  | sign => cases h

/-- A sign that may be missing is found where it is not, if what comes next is another one. -/
theorem optionalSign_of_ne {c d : Char} (h : p.mark = .sign d) (hne : d ≠ c) :
    optionalSign c (p :: ps) = (false, p :: ps) := by
  rw [optionalSign, isSign_of_mark h, if_neg (by simpa using hne)]

/-- The front of an entry is read from its marks. -/
theorem entryHead_of_marks {offset : Nat} (hps : ps.map Piece.mark = optionMark isOptional)
    (hp : p.mark = .sign ':') :
    entryHead b (.word name.toList offset :: (ps ++ p :: rest)) =
      .ok ((name, isOptional), rest) := by
  have hcolon : expectSign b ':' (p :: rest) = .ok rest := by
    rw [expectSign, isSign_of_mark hp, if_pos (beq_self_eq_true ':')]
  have hword : expectWord b .expectedKey (.word name.toList offset :: (ps ++ p :: rest)) =
      .ok (name, ps ++ p :: rest) := by
    rw [expectWord, String.ofList_toList]
  have hoption : optionalSign '?' (ps ++ p :: rest) = (isOptional, p :: rest) := by
    cases isOptional with
    | true =>
        obtain ⟨q, rfl, hq⟩ := List.map_eq_singleton_iff.mp hps
        rw [List.singleton_append, optionalSign, isSign_of_mark hq,
          if_pos (beq_self_eq_true '?')]
    | false =>
        obtain rfl := List.map_eq_nil_iff.mp hps
        exact optionalSign_of_ne hp (by decide)
  unfold entryHead
  rw [hword]
  dsimp only [bind, Except.bind]
  rw [hoption]
  dsimp only
  rw [hcolon]
  rfl

/-- An array mark is read from its marks. -/
theorem arrayMark_of_marks (hps : ps.map Piece.mark = arrayMarks isArray)
    (hrest : ∀ q ∈ rest.head?, q.isSign '[' = false) :
    arrayMark b (ps ++ rest) = .ok (isArray, rest) := by
  cases isArray with
  | true =>
      obtain ⟨q, qs, rfl, hq, hqs⟩ := List.map_eq_cons_iff.mp hps
      obtain ⟨r, rfl, hr⟩ := List.map_eq_singleton_iff.mp hqs
      have hopen : optionalSign '[' (q :: r :: rest) = (true, r :: rest) := by
        rw [optionalSign, isSign_of_mark hq, if_pos (beq_self_eq_true '[')]
      show arrayMark b (q :: r :: rest) = _
      unfold arrayMark
      rw [hopen]
      dsimp only
      rw [expectSign, isSign_of_mark hr, if_pos (beq_self_eq_true ']')]
      rfl
  | false =>
      obtain rfl := List.map_eq_nil_iff.mp hps
      have hnone : optionalSign '[' rest = (false, rest) := by
        cases rest with
        | nil => rfl
        | cons q rest => rw [optionalSign, hrest q rfl, if_neg (by decide)]
      rw [List.nil_append, arrayMark, hnone]

/-- What comes after an array mark is no other one. -/
theorem isSign_of_writesEntries {ms : List Mark} {es : List ShapeEntry} (hw : WritesEntries ms es)
    (hps : ps.map Piece.mark = ms) (hp : p.isSign '}' = true) :
    ∀ q ∈ (ps ++ p :: rest).head?, q.isSign '[' = false := by
  intro q hq
  cases hw with
  | nil =>
      obtain rfl := List.map_eq_nil_iff.mp hps
      cases hq
      cases p with
      | word => rfl
      | sign c offset =>
          have hc : c = '}' := by simpa [Piece.isSign] using hp
          rw [hc]
          rfl
  | separator sign =>
      obtain ⟨r, rs, rfl, hr, -⟩ := List.map_eq_cons_iff.mp hps
      cases hq
      rw [isSign_of_mark hr]
      rcases sign with rfl | rfl <;> rfl
  | leaf | object =>
      obtain ⟨r, rs, rfl, hr, -⟩ := List.map_eq_cons_iff.mp hps
      cases hq
      obtain ⟨offset, rfl⟩ := exists_word_of_mark hr
      rfl

/-- A new name has not been seen among the others. -/
theorem not_mem_cons_of_fresh {es : List ShapeEntry} (fresh : name ∉ es.map ShapeEntry.name)
    (hseen : ∀ e ∈ es, e.name ∉ seen) : ∀ e ∈ es, e.name ∉ name :: seen := by
  intro e he hmem
  rcases List.mem_cons.mp hmem with heq | hmem
  · exact fresh (heq ▸ List.mem_map_of_mem he)
  · exact hseen e he hmem

/-- **What was written is read**, but for texts and places: the entries of an object up to its
closing brace, if their keys are new. -/
theorem readEntries_of_writesEntries {ms : List Mark} {es : List ShapeEntry}
    (hw : WritesEntries ms es) (hplain : AreExpressible es) (hseen : ∀ e ∈ es, e.name ∉ seen)
    (hps : ps.map Piece.mark = ms) (hp : p.isSign '}' = true) :
    ∃ es', readEntries b seen (ps ++ p :: rest) = .ok (es', p.offset + 1, rest) ∧
      ShapeEntry.contentList es' = ShapeEntry.contentList es := by
  induction hw generalizing seen ps p rest with
  | nil =>
      obtain rfl := List.map_eq_nil_iff.mp hps
      exact ⟨[], readEntries_close hp, rfl⟩
  | @separator c ms es sign rest' ih =>
      obtain ⟨q, qs, rfl, hq, hqs⟩ := List.map_eq_cons_iff.mp hps
      obtain ⟨es', hread, hcontent⟩ := ih hplain hseen hqs hp
      refine ⟨es', ?_, hcontent⟩
      rw [List.cons_append, readEntries_separator, hread]
      · rcases sign with rfl | rfl <;> rw [isSign_of_mark hq] <;> rfl
      · rcases sign with rfl | rfl <;> rw [isSign_of_mark hq, isSign_of_mark hq] <;> rfl
  | @leaf name typeName isOptional isArray ms es hrest ih =>
      obtain ⟨q, qs, rfl, hq, hqs⟩ := List.map_eq_cons_iff.mp hps
      obtain ⟨offset, rfl⟩ := exists_word_of_mark hq
      obtain ⟨os, ts, rfl, hos, hts⟩ := List.map_eq_append_iff.mp hqs
      obtain ⟨colon, us, rfl, hcolon, hus⟩ := List.map_eq_cons_iff.mp hts
      obtain ⟨t, vs, rfl, ht, hvs⟩ := List.map_eq_cons_iff.mp hus
      obtain ⟨offset', rfl⟩ := exists_word_of_mark ht
      obtain ⟨marks, ps, rfl, hmarks, hps⟩ := List.map_eq_append_iff.mp hvs
      cases hplain with
      | leaf named typed fresh hplain =>
          obtain ⟨hname, hseen⟩ := List.forall_mem_cons.mp hseen
          obtain ⟨es', hread, hcontent⟩ :=
            @ih (name :: seen) p ps rest hplain (not_mem_cons_of_fresh fresh hseen) hps hp
          refine ⟨⟨name, typeName, isOptional, isArray, none⟩ :: es', ?_, ?_⟩
          · have htype : readType b (.word typeName.toList offset' :: (marks ++ (ps ++ p :: rest))) =
                .ok (typeName, none, marks ++ (ps ++ p :: rest)) := by
              show Except.ok (String.ofList typeName.toList, (none : Option Shape), _) = _
              rw [String.ofList_toList]
            have hmark := arrayMark_of_marks (b := b) hmarks
              (@isSign_of_writesEntries p ps rest ms es hrest hps hp)
            simp only [List.cons_append, List.append_assoc]
            rw [readEntries_entry (entryHead_of_marks hos hcolon) htype hmark hname, hread]
            rfl
          · rw [ShapeEntry.contentList, ShapeEntry.contentList, hcontent]
  | @object name raw isOptional isArray position ns ms inner es inside hrest ih ih' =>
      obtain ⟨q, qs, rfl, hq, hqs⟩ := List.map_eq_cons_iff.mp hps
      obtain ⟨offset, rfl⟩ := exists_word_of_mark hq
      obtain ⟨os, ts, rfl, hos, hts⟩ := List.map_eq_append_iff.mp hqs
      obtain ⟨colon, us, rfl, hcolon, hus⟩ := List.map_eq_cons_iff.mp hts
      obtain ⟨opening, vs, rfl, hopening, hvs⟩ := List.map_eq_cons_iff.mp hus
      obtain ⟨ps', ws, rfl, hps', hws⟩ := List.map_eq_append_iff.mp hvs
      obtain ⟨closing, xs, rfl, hclosing, hxs⟩ := List.map_eq_cons_iff.mp hws
      obtain ⟨marks, ps, rfl, hmarks, hps⟩ := List.map_eq_append_iff.mp hxs
      cases hplain with
      | object named fresh hinside hplain =>
          obtain ⟨hname, hseen⟩ := List.forall_mem_cons.mp hseen
          obtain ⟨es', hread, hcontent⟩ :=
            @ih' (name :: seen) p ps rest hplain (not_mem_cons_of_fresh fresh hseen) hps hp
          have hclose : closing.isSign '}' = true := by rw [isSign_of_mark hclosing]; rfl
          obtain ⟨inner', hinner, hcontent'⟩ := @ih [] closing ps' (marks ++ (ps ++ p :: rest))
            hinside (fun _ _ => List.not_mem_nil) hps' hclose
          refine ⟨⟨name, "object", isOptional, isArray, some ⟨b.slice opening.offset
            (closing.offset + 1), isArray, inner', b.place opening.offset⟩⟩ :: es', ?_, ?_⟩
          · have htype : readType b (opening :: (ps' ++ closing :: (marks ++ (ps ++ p :: rest)))) =
                .ok ("object", some ⟨b.slice opening.offset (closing.offset + 1), false, inner',
                  b.place opening.offset⟩, marks ++ (ps ++ p :: rest)) := by
              rw [readType, openBrace?, isSign_of_mark hopening, if_pos (beq_self_eq_true '{')]
              dsimp only
              rw [hinner]
              rfl
            have hmark := arrayMark_of_marks (b := b) hmarks
              (@isSign_of_writesEntries p ps rest ms es hrest hps hp)
            simp only [List.cons_append, List.append_assoc]
            rw [readEntries_entry (entryHead_of_marks hos hcolon) htype hmark hname, hread]
            rfl
          · simp only [ShapeEntry.contentList, ShapeEntry.content, Shape.contentOption, Shape.content,
              hcontent, hcontent']

end

/-- A text is read as the object that its pieces after an opening brace are. -/
theorem ofText_of_readEntries {raw : String} {position : Position} {p : Piece} {ps : List Piece}
    {es : List ShapeEntry} {stop : Nat} (hpieces : pieces 0 raw.toList = .ok (p :: ps))
    (hp : p.isSign '{' = true)
    (h : readEntries ⟨raw.toList, position⟩ [] ps = .ok (es, stop, [])) (isArray : Bool) :
    ofText raw position isArray = .ok ⟨raw, isArray, es, position⟩ := by
  unfold ofText
  dsimp only
  rw [hpieces]
  show (expectSign _ '{' (p :: ps)).bind _ = _
  rw [expectSign, if_pos hp]
  show (readBody ⟨raw.toList, position⟩ [] ps).bind _ = _
  unfold readEntries at h
  cases hbody : readBody ⟨raw.toList, position⟩ [] ps with
  | error e => rw [hbody] at h; cases h
  | ok body =>
      rw [hbody] at h
      obtain ⟨rfl, h⟩ := Prod.ext_iff.mp (Except.ok.inj h)
      show (if body.rest.isEmpty then _ else _) = _
      rw [if_pos (List.isEmpty_iff.mpr (Prod.ext_iff.mp h).2)]
      rfl

/-- **What a text writes is read**, but for texts and places. -/
theorem ofText_of_writes {raw : String} {es : List ShapeEntry} (h : Writes raw es)
    (hes : AreExpressible es) (position : Position) (isArray : Bool) :
    ∃ es', ofText raw position isArray = .ok ⟨raw, isArray, es', position⟩ ∧
      ShapeEntry.contentList es' = ShapeEntry.contentList es := by
  obtain ⟨ms, hwrites, hlaid⟩ := h
  have hfits : ∀ m ∈ braced ms, m.Fits := by
    simp only [braced, List.forall_mem_cons, List.forall_mem_append]
    exact ⟨Mark.fits_sign (by decide), fits_of_writesEntries hwrites hes, Mark.fits_sign (by decide),
      nofun⟩
  obtain ⟨ps, hmarks, hpieces⟩ := pieces_of_laidOut hlaid hfits 0
  obtain ⟨opening, qs, rfl, hopening, hqs⟩ := List.map_eq_cons_iff.mp hmarks
  obtain ⟨ps, closings, rfl, hps, hclosings⟩ := List.map_eq_append_iff.mp hqs
  obtain ⟨closing, rfl, hclosing⟩ := List.map_eq_singleton_iff.mp hclosings
  obtain ⟨es', hread, hcontent⟩ := @readEntries_of_writesEntries ⟨raw.toList, position⟩ []
    closing ps [] ms es hwrites hes (fun _ _ => List.not_mem_nil) hps
    (by rw [isSign_of_mark hclosing]; rfl)
  exact ⟨es', ofText_of_readEntries hpieces (by rw [isSign_of_mark hopening]; rfl) hread isArray,
    hcontent⟩

/-- **The text of a shape is read** as the shape, but for texts and places. -/
theorem ofText_of_isText {raw : String} {s : Shape} (h : IsText raw s) (hs : s.IsExpressible)
    (position : Position) :
    ∃ s', ofText raw position s.isArray = .ok s' ∧ s'.content = s.content := by
  obtain ⟨es, hread, hcontent⟩ := ofText_of_writes h.writes hs position s.isArray
  refine ⟨_, hread, ?_⟩
  obtain ⟨_, _, entries, _⟩ := s
  simp only [content, hcontent]

end Shape

end Schemata
