import Schemata.Command.World
import Schemata.Display.SchemaTable
import Schemata.Proofs.Display.Markup
import Schemata.Proofs.Display.Table
import Schemata.Proofs.Number.Reading
import Schemata.Proofs.Schema.Accepted

/-!
# Proofs — display — schemas

What the table of a schema shows.  Its cells are read as markup, and nothing in them is escaped.
So it shows the texts of the schema if all of them are plain, and it fails if one of them has a
closing tag that closes nothing (`Schema.printGrid_table`).

Of an accepted schema every name is a word, and a number, a generator or a relation is written
without markup.  So its texts are plain unless a text that is a default has a bracket or a colon in
it (`Schema.IsAccepted.isPlain_of_mem_texts`).
-/

namespace Schemata

open Display Markup Grammar

/-! ### Characters -/

theorem Lexeme.IsWord.isWordPart {text : String} (h : Lexeme.IsWord text) :
    ∀ c ∈ text.toList, Lexeme.isWordPart c = true := by
  obtain ⟨c, cs, htext, hc, hcs⟩ := h
  rw [htext]
  exact List.forall_mem_cons.mpr ⟨Lexeme.isWordPart_of_isWordStart hc, hcs⟩

namespace Markup

variable {c : Char}

/-- The dropped controls are among the first characters. -/
theorem isDroppedControl_of_le (h : 14 ≤ c.toNat) : isDroppedControl c = false := by
  unfold isDroppedControl
  rw [Bool.eq_false_iff, ne_eq, List.contains_iff_mem]
  intro hmem
  simp only [List.mem_cons, List.not_mem_nil, or_false] at hmem
  omega

/-- The characters of words are harmless. -/
theorem isHarmless_of_isWordPart (h : Lexeme.isWordPart c = true) : isHarmless c = true := by
  have hbounds : 14 ≤ c.toNat := by
    unfold Lexeme.isWordPart Char.isAlphanum at h
    simp only [Bool.or_eq_true, beq_iff_eq] at h
    rcases h with ((h | h) | rfl) | rfl
    · have := Text.bounds_of_letter (c := c) (by simp [h])
      omega
    · have := isDigit_iff.mp h
      omega
    · decide
    · decide
  refine isHarmless_iff.mpr ⟨⟨?_, ?_⟩, isDroppedControl_of_le hbounds⟩
  · rintro rfl
    exact absurd h (by decide)
  · rintro rfl
    exact absurd h (by decide)

/-- Digits are harmless. -/
theorem isHarmless_of_mem_toDigits {base n : Nat} (hbase : 1 < base ∧ base ≤ 16)
    (h : c ∈ Nat.toDigits base n) : isHarmless c = true := by
  have hdigit : ∀ d < 16, isHarmless (Nat.digitChar d) = true := by decide
  induction n using Nat.strong_induction_on with
  | h n ih =>
      by_cases hn : n < base
      · rw [Nat.toDigits_of_lt_base hn, List.mem_singleton] at h
        exact h ▸ hdigit n (by omega)
      · rw [Nat.toDigits_of_base_le hbase.1 (Nat.not_lt.mp hn), List.mem_append,
          List.mem_singleton] at h
        rcases h with h | rfl
        · exact ih (n / base) (Nat.div_lt_self (by omega) hbase.1) h
        · exact hdigit _ (Nat.lt_of_lt_of_le (Nat.mod_lt n (by omega)) hbase.2)

theorem isHarmless_of_mem_zeros {n : Nat} (h : c ∈ List.replicate n '0') : isHarmless c = true := by
  rw [List.eq_of_mem_replicate h]
  rfl

theorem isHarmless_of_mem_hexadecimal {width n : Nat} (h : c ∈ Text.hexadecimal width n) :
    isHarmless c = true := by
  rcases List.mem_append.mp h with h | h
  · exact isHarmless_of_mem_zeros h
  · exact isHarmless_of_mem_toDigits (by decide) h

/-- What is escaped in a text between quotes brings no markup into it. -/
theorem isHarmless_of_mem_escapeChar {quote d : Char} (hquote : isHarmless quote = true)
    (hc : c ≠ '[' ∧ c ≠ ':') (h : d ∈ Text.escapeChar quote c) : isHarmless d = true := by
  -- a backslash is harmless where no bracket follows it, and none does
  have hbackslash (ds : List Char) (hds : ∀ e ∈ ds, isHarmless e = true) (hd : d ∈ '\\' :: ds) :
      isHarmless d = true := by
    rcases List.mem_cons.mp hd with rfl | hd
    · decide
    · exact hds d hd
  unfold Text.escapeChar at h
  split at h
  next hescaped =>
    refine hbackslash [c] (List.forall_mem_singleton.mpr ?_) h
    rcases Bool.or_eq_true_iff.mp hescaped with heq | heq
    · rwa [beq_iff_eq.mp heq]
    · rw [beq_iff_eq.mp heq]
      decide
  split at h
  next => exact hbackslash ['n'] (List.forall_mem_singleton.mpr rfl) h
  split at h
  next => exact hbackslash ['r'] (List.forall_mem_singleton.mpr rfl) h
  split at h
  next => exact hbackslash ['t'] (List.forall_mem_singleton.mpr rfl) h
  split at h
  next hprintable =>
    rw [List.mem_singleton.mp h]
    -- the controls that are left out do not print, so they have been escaped
    refine isHarmless_iff.mpr ⟨hc, isDroppedControl_of_le ?_⟩
    unfold Text.isPrintable at hprintable
    split at hprintable
    · simp at hprintable
      omega
    · omega
  have hnumber (sign : Char) (hsign : isHarmless sign = true) {width : Nat} :
      ∀ e ∈ sign :: Text.hexadecimal width c.toNat, isHarmless e = true :=
    List.forall_mem_cons.mpr ⟨hsign, fun e he => isHarmless_of_mem_hexadecimal he⟩
  split at h
  next => exact hbackslash _ (hnumber 'x' (by decide)) h
  split at h
  next => exact hbackslash _ (hnumber 'u' (by decide)) h
  next => exact hbackslash _ (hnumber 'U' (by decide)) h

/-! ### Texts -/

theorem isHarmless_word {text : String} (h : Lexeme.IsWord text) : IsHarmless text := fun c hc =>
  isHarmless_of_isWordPart (h.isWordPart c hc)

/-- A quoted text is harmless if it has no brackets and no colons. -/
theorem isHarmless_quoted {text : String} (h : ∀ c ∈ text.toList, c ≠ '[' ∧ c ≠ ':') :
    IsHarmless (Text.quoted text) := by
  have hquote : isHarmless (Text.quoteFor text.toList) = true := by
    unfold Text.quoteFor
    split <;> decide
  refine isHarmless_ofList_iff.mpr ?_
  rw [List.cons_append]
  refine List.forall_mem_cons.mpr ⟨hquote, List.forall_mem_append.mpr
    ⟨fun d hd => ?_, List.forall_mem_singleton.mpr hquote⟩⟩
  obtain ⟨c, hc, hd⟩ := List.mem_flatMap.mp hd
  exact isHarmless_of_mem_escapeChar hquote (h c hc) hd

/-- An integer is harmless. -/
theorem isHarmless_toString_int (n : Int) : IsHarmless (toString n) := by
  rw [IsHarmless, Numeral.toList_toString_int, Numeral.signed]
  have hdigits : ∀ c ∈ Nat.toDigits 10 n.natAbs, isHarmless c = true := fun c hc =>
    isHarmless_of_mem_toDigits (by decide) hc
  split
  · exact List.forall_mem_cons.mpr ⟨by decide, hdigits⟩
  · exact hdigits

/-- A decimal number is harmless. -/
theorem isHarmless_decimalText (d : Decimal) : IsHarmless (Binary64.decimalText d) := by
  have hdigits : ∀ c ∈ Nat.toDigits 10 d.digits, isHarmless c = true := fun c hc =>
    isHarmless_of_mem_toDigits (by decide) hc
  have hzeros (n : Nat) : ∀ c ∈ List.replicate n '0', isHarmless c = true := fun c hc =>
    isHarmless_of_mem_zeros hc
  have htake (n : Nat) : ∀ c ∈ (Nat.toDigits 10 d.digits).take n, isHarmless c = true :=
    fun c hc => hdigits c (List.mem_of_mem_take hc)
  have hdrop (n : Nat) : ∀ c ∈ '.' :: (Nat.toDigits 10 d.digits).drop n, isHarmless c = true :=
    List.forall_mem_cons.mpr ⟨by decide, fun c hc => hdigits c (List.mem_of_mem_drop hc)⟩
  unfold Binary64.decimalText
  dsimp only
  split
  · split
    · refine isHarmless_ofList_iff.mpr ?_
      exact List.forall_mem_cons.mpr ⟨by decide, List.forall_mem_cons.mpr ⟨by decide,
        List.forall_mem_append.mpr ⟨hzeros _, hdigits⟩⟩⟩
    · split
      · refine isHarmless_ofList_iff.mpr ?_
        exact List.forall_mem_append.mpr ⟨List.forall_mem_append.mpr ⟨hdigits, hzeros _⟩,
          List.forall_mem_cons.mpr ⟨rfl, List.forall_mem_singleton.mpr rfl⟩⟩
      · exact isHarmless_ofList_iff.mpr (List.forall_mem_append.mpr ⟨htake _, hdrop _⟩)
  · refine isHarmless_append_iff.mpr ⟨isHarmless_ofList_iff.mpr ?_, ?_⟩
    · refine List.forall_mem_append.mpr ⟨htake 1, ?_⟩
      split
      · exact fun c hc => absurd hc List.not_mem_nil
      · exact hdrop 1
    · unfold Binary64.exponentText
      refine isHarmless_append_iff.mpr ⟨isHarmless_append_iff.mpr ⟨?_, ?_⟩, ?_⟩
      · split <;> decide
      · split <;> decide
      · exact isHarmless_toString_int (Int.natAbs _)

/-- A number of double precision is harmless. -/
theorem isHarmless_text (x : Binary64) : IsHarmless x.text := by
  cases x with
  | infinite negative => cases negative <;> decide
  | finite negative ticks =>
      unfold Binary64.text
      refine isHarmless_append_iff.mpr ⟨by cases negative <;> decide, ?_⟩
      split
      · decide
      · exact isHarmless_decimalText _

end Markup

/-- A text without brackets and colons, or no text at all. -/
def Default.IsUnmarked : Default → Prop
  | .literal (.text text) => ∀ c ∈ text.toList, c ≠ '[' ∧ c ≠ ':'
  | _ => True

instance (d : Default) : Decidable d.IsUnmarked :=
  match d with
  | .literal (.text text) => List.decidableBAll (fun c => c ≠ '[' ∧ c ≠ ':') text.toList
  | .literal (.bool _) | .literal (.int _) | .literal (.float _) | .call _ => .isTrue trivial

/-- Of all defaults only texts can have markup in them. -/
theorem Default.isHarmless_attribute {d : Default} (h : d.IsUnmarked) :
    IsHarmless d.attribute := by
  cases d with
  | literal v =>
      refine isHarmless_append_iff.mpr ⟨isHarmless_append_iff.mpr ⟨by decide, ?_⟩, by decide⟩
      cases v with
      | bool b => cases b <;> decide
      | int n => exact isHarmless_toString_int n
      | float x => exact isHarmless_text x
      | text t => exact isHarmless_quoted h
  | call g => cases g <;> decide

/-! ### The texts of a schema -/

/-- The type of a field as a table shows it. -/
def Field.shownType (f : Field) : String := if f.isArray then f.typeName ++ "[]" else f.typeName

/-- What a table shows of the fields of a schema. -/
def Schema.texts (s : Schema) : List String :=
  s.models.flatMap fun m => m.fields.flatMap fun f =>
    [m.name, f.name, f.shownType, " ".intercalate f.attributes]

/-- No text that is a default has a bracket or a colon in it. -/
def Schema.HasUnmarkedDefaults (s : Schema) : Prop :=
  ∀ m ∈ s.models, ∀ f ∈ m.fields, ∀ d ∈ f.default, d.IsUnmarked

instance (s : Schema) : Decidable s.HasUnmarkedDefaults :=
  inferInstanceAs (Decidable (∀ m ∈ s.models, ∀ f ∈ m.fields, ∀ d ∈ f.default, d.IsUnmarked))

/-- A row is that of a field, and tells the name of the model or none. -/
theorem Model.mem_rows {m : Model} {row : List String} (h : row ∈ m.rows) :
    ∃ f ∈ m.fields, ∃ name, (name = m.name ∨ name = "") ∧ row = f.row name := by
  unfold rows at h
  split at h
  next => cases h
  next f fs hfields =>
    rw [hfields]
    rcases List.mem_cons.mp h with rfl | h
    · exact ⟨f, List.mem_cons_self, _, .inl rfl, rfl⟩
    · obtain ⟨g, hg, rfl⟩ := List.mem_map.mp h
      exact ⟨g, List.mem_cons_of_mem f hg, _, .inr rfl, rfl⟩

/-- The first field has the row with the name of the model, and every field has a row. -/
theorem Model.exists_mem_rows {m : Model} {f : Field} (hf : f ∈ m.fields) :
    (∃ g : Field, g.row m.name ∈ m.rows) ∧ ∃ name, f.row name ∈ m.rows := by
  unfold rows
  split
  next hfields => cases hfields ▸ hf
  next g fs hfields =>
    refine ⟨⟨g, List.mem_cons_self⟩, ?_⟩
    rcases List.mem_cons.mp (hfields ▸ hf) with rfl | hf
    · exact ⟨_, List.mem_cons_self⟩
    · exact ⟨"", List.mem_cons_of_mem _ (List.mem_map_of_mem hf)⟩

namespace Schema

variable {s : Schema} {title text : String}

theorem mem_texts_iff : text ∈ s.texts ↔ ∃ m ∈ s.models, ∃ f ∈ m.fields,
    text = m.name ∨ text = f.name ∨ text = f.shownType ∨ text = " ".intercalate f.attributes := by
  simp [texts]

theorem length_of_mem_rows {row : List String} (h : row ∈ (s.table title).rows) :
    row.length = (s.table title).header.length := by
  obtain ⟨m, -, hrow⟩ := List.mem_flatMap.mp h
  obtain ⟨f, -, name, -, rfl⟩ := Model.mem_rows hrow
  rfl

/-- A table shows its title and the texts of the schema, and besides them only its heading and
nothing. -/
theorem mem_texts_table (h : text ∈ (s.table title).texts) :
    text ∈ title :: s.texts ∨ IsHarmless text := by
  rcases (Grid.mem_texts_iff fun _ => length_of_mem_rows).mp h with rfl | ⟨row, hrow, hmem⟩
  · exact .inl List.mem_cons_self
  rcases List.mem_cons.mp hrow with rfl | hrow
  · have hheading : ∀ t ∈ ["Model", "Field", "Type", "Attributes"], IsHarmless t := by decide
    exact .inr (hheading text hmem)
  obtain ⟨m, hm, hrow⟩ := List.mem_flatMap.mp hrow
  obtain ⟨f, hf, name, hname, rfl⟩ := Model.mem_rows hrow
  rcases List.mem_cons.mp hmem with rfl | hmem
  · rcases hname with rfl | rfl
    · exact .inl (List.mem_cons_of_mem _ (mem_texts_iff.mpr ⟨m, hm, f, hf, .inl rfl⟩))
    · exact .inr (by decide)
  · refine .inl (List.mem_cons_of_mem _ (mem_texts_iff.mpr ⟨m, hm, f, hf, .inr ?_⟩))
    simpa [Field.shownType] using hmem

/-- A table shows its title and all texts of the schema. -/
theorem mem_texts_table_of_mem (h : text ∈ title :: s.texts) : text ∈ (s.table title).texts := by
  rw [Grid.mem_texts_iff fun _ => length_of_mem_rows]
  rcases List.mem_cons.mp h with rfl | h
  · exact .inl rfl
  obtain ⟨m, hm, f, hf, htext⟩ := mem_texts_iff.mp h
  have hrows {row : List String} (hrow : row ∈ m.rows) : row ∈ (s.table title).header ::
      (s.table title).rows := List.mem_cons_of_mem _ (List.mem_flatMap.mpr ⟨m, hm, hrow⟩)
  obtain ⟨⟨g, hfirst⟩, name, hrow⟩ := Model.exists_mem_rows hf
  rcases htext with rfl | htext
  · exact .inr ⟨_, hrows hfirst, List.mem_cons_self⟩
  · exact .inr ⟨_, hrows hrow, List.mem_cons_of_mem _ (by simpa [Field.shownType] using htext)⟩

end Schema

/-! ### Accepted schemas -/

/-- Of a field that is written the type is a word, and so is a foreign key. -/
theorem isWord_of_writesField {ts : List Token} {f : Field}
    (hts : ∀ t ∈ ts, t.kind.isName = true → Lexeme.IsWord t.text) (h : WritesField ts f) :
    Lexeme.IsWord f.name ∧ Lexeme.IsWord f.typeName ∧
      ∀ r, f.relation = some r → ∀ key, r.foreignKey = some key → Lexeme.IsWord key := by
  cases h with
  | @mk name ts us vs type isArray ds named typed marked decorated distinct =>
      refine ⟨hts _ List.mem_cons_self named, ?_, ?_⟩
      · show Lexeme.IsWord type.typeName
        cases typed with
        | scalar kind => exact hts _ (by simp) (by simp [TokenKind.isName, kind])
        | model kind => exact hts _ (by simp) (by simp [TokenKind.isName, kind])
        | json kind => exact hts _ (by simp) (by simp [TokenKind.isName, kind])
      · -- a key comes from a decorator that names one, by a token of its own
        intro r hr key hkey
        obtain ⟨d, hd, hr⟩ := List.exists_of_findSome?_eq_some hr
        obtain ⟨ws, hws, written⟩ := exists_of_writesRow decorated hd
        cases written with
        | mk signed saying =>
            cases saying with
            | @keyedRelation first opening named closing k kind text opens keyed closes =>
                cases hr
                cases hkey
                have hmem : named ∈ vs := hws (by simp)
                exact hts named (by simp [hmem]) keyed
            | relation => cases hr; cases hkey
            | _ => cases hr

/-- What is said about a field is without markup, if its default and its foreign key are. -/
theorem Field.isHarmless_attributes {f : Field}
    (hdefault : ∀ d ∈ f.default, d.IsUnmarked)
    (hkey : ∀ r, f.relation = some r → ∀ key, r.foreignKey = some key → IsHarmless key) :
    IsHarmless (" ".intercalate f.attributes) := by
  have hword {b : Bool} {word : String} (h : IsHarmless word) :
      ∀ t ∈ if b = true then [word] else [], IsHarmless t := by
    split
    · exact List.forall_mem_singleton.mpr h
    · nofun
  refine isHarmless_intercalate (by decide) ?_
  simp only [attributes, List.forall_mem_append, Option.mem_toList,
    Option.map_eq_some_iff]
  refine ⟨⟨⟨⟨hword (by decide), hword (by decide)⟩, hword (by decide)⟩, ?_⟩, ?_⟩
  · rintro t ⟨d, hd, rfl⟩
    exact Default.isHarmless_attribute (hdefault d hd)
  · rintro t ⟨r, hr, rfl⟩
    have hkind : IsHarmless r.kind.name := by cases r.kind <;> decide
    unfold Relation.attribute
    split
    next key hsome =>
      have hgiven := (Option.filter_eq_some_iff.mp hsome).1
      exact isHarmless_append_iff.mpr ⟨isHarmless_append_iff.mpr
        ⟨isHarmless_append_iff.mpr ⟨hkind, by decide⟩, hkey r hr key hgiven⟩, by decide⟩
    next => exact hkind

namespace Schema.IsAccepted

variable {s : Schema}

/-- **The texts of an accepted schema** are plain, whatever it is made of, as long as no default has
markup in it. -/
theorem isPlain_of_mem_texts (hs : s.IsAccepted) (h : s.HasUnmarkedDefaults) {text : String}
    (htext : text ∈ s.texts) : IsPlain text := by
  obtain ⟨m, hm, f, hf, htext⟩ := mem_texts_iff.mp htext
  obtain ⟨source, strict, c, hcompile, haccept⟩ := id hs
  obtain ⟨ts, -, hfirst, written⟩ := exists_writesModel hcompile haccept hm
  have hts : ∀ t ∈ ts, t.kind.isName = true → Lexeme.IsWord t.text := fun t ht hname => by
    obtain ⟨armed, c, cs, hfirst⟩ := hfirst t ht
    exact Lexeme.isWord_of_first hfirst hname
  obtain ⟨us, hus, written⟩ := exists_writesField written hf
  obtain ⟨hname, htype, hkey⟩ := isWord_of_writesField (fun t ht => hts t (hus ht)) written
  rcases htext with rfl | rfl | rfl | rfl
  · exact isPlain_of_isHarmless (isHarmless_word (hs.isWorded m hm).name)
  · exact isPlain_of_isHarmless (isHarmless_word hname)
  · unfold Field.shownType
    split
    · refine isPlain_append_brackets (isHarmless_word htype) fun hmem => ?_
      exact absurd (htype.isWordPart _ hmem) (by decide)
    · exact isPlain_of_isHarmless (isHarmless_word htype)
  · exact isPlain_of_isHarmless (Field.isHarmless_attributes (h m hm f hf) fun r hr key hgiven =>
      isHarmless_word (hkey r hr key hgiven))

end Schema.IsAccepted

/-! ### Printing a schema -/

/-- To print a table writes it to the screen, or fails and leaves the screen. -/
theorem Command.run_printGrid (g : Grid) (w : World) : (Command.printGrid g).run w =
    match g.render with
    | .ok text => (.ok (), { w with screen := w.screen ++ text })
    | .error fault => (.error (.markup fault), w) := by
  unfold printGrid
  cases g.render <;> rfl

namespace Schema

variable {s : Schema} {title : String}

/-- **A table of a schema is printed** unless a tag in a text of the schema closes nothing. -/
theorem printGrid_table_ok_iff {w : World} :
    ((Command.printGrid (s.table title)).run w).1 = .ok () ↔
      ∀ text ∈ title :: s.texts, ∀ fault, plain text ≠ .error fault := by
  have hrun : ((Command.printGrid (s.table title)).run w).1 = .ok () ↔
      ¬ ∃ fault, (s.table title).render = .error fault := by
    rw [Command.run_printGrid]
    cases (s.table title).render <;> simp
  rw [hrun, Grid.exists_render_error_iff]
  constructor
  · intro h text htext fault hfault
    exact h ⟨text, mem_texts_table_of_mem htext, fault, hfault⟩
  · rintro h ⟨text, htext, fault, hfault⟩
    rcases mem_texts_table htext with htext | htext
    · exact h text htext fault hfault
    · -- the heading, or a cell where the name of a model is not repeated
      rw [plain_of_isUnmarked (isPlain_of_isHarmless htext).unmarked] at hfault
      cases hfault

theorem run_printGrid_table (h : ∀ text ∈ title :: s.texts, IsPlain text) (w : World) :
    (Command.printGrid (s.table title)).run w =
      (.ok (), { w with screen := w.screen ++ (s.table title).verbatim }) := by
  rw [Command.run_printGrid, Grid.render_of_forall]
  intro text htext
  exact Grid.cell_of_isPlain ((mem_texts_table htext).elim (h text) isPlain_of_isHarmless)

/-- **The table of a schema**, whether the schema was compiled or read from a database.  It is
printed unless a tag in one of its texts closes nothing; then nothing is.  If all its texts are
plain it shows them as they are, and a text without colons is shown as it is only if it is plain.
A text loses nothing but blanks where it is broken into lines, and nothing is cut if the table fits
on the screen.  All texts of an accepted schema are plain unless a default has markup in it. -/
theorem printGrid_table (s : Schema) (title : String) (w : World) :
    (((Command.printGrid (s.table title)).run w).1 = .ok () ↔
      ∀ text ∈ title :: s.texts, ∀ fault, plain text ≠ .error fault) ∧
    (((Command.printGrid (s.table title)).run w).1 ≠ .ok () →
      ((Command.printGrid (s.table title)).run w).2 = w) ∧
    ((∀ text ∈ title :: s.texts, IsPlain text) → (Command.printGrid (s.table title)).run w =
      (.ok (), { w with screen := w.screen ++ (s.table title).verbatim })) ∧
    (∀ text ∈ title :: s.texts, ':' ∉ text.toList →
      (Grid.cell text = .ok text.toList ↔ IsPlain text)) ∧
    (∀ text ∈ title :: s.texts, ∀ columns, Grid.ShowsBroken columns text.toList) ∧
    (Grid.totalWidth (s.table title).naturalWidths ≤ screenWidth →
      ∀ (i : Nat) (column : List String), (s.table title).columns[i]? = some column →
      ∀ text ∈ column, (∀ c ∈ text.toList, Grid.endsLine c = false ∧ c ≠ '\t') →
      ∃ columns, (Grid.fittedWidths (s.table title).naturalWidths)[i]? = some columns ∧
        Grid.ShowsWhole columns text.toList) ∧
    (s.IsAccepted → s.HasUnmarkedDefaults → ∀ text ∈ s.texts, IsPlain text) := by
  refine ⟨printGrid_table_ok_iff, ?_, fun h => run_printGrid_table h w,
    fun text _ => Grid.cell_eq_iff, fun text _ columns => Grid.showsBroken columns text.toList,
    fun h i column hcolumn text htext => Grid.exists_showsWhole h hcolumn htext,
    fun hs h text htext => hs.isPlain_of_mem_texts h htext⟩
  rw [Command.run_printGrid]
  cases (s.table title).render with
  | ok text => exact fun h => absurd rfl h
  | error fault => exact fun _ => rfl

/-- Notes whose bodies have this default, with these further fields. -/
def notesWith (default : String) (fields : List Field) : Schema :=
  ⟨[{ name := "note"
      fields :=
        { name := "body", typeName := "string", default := some (.literal (.text default))
          position := ⟨2, 3⟩ } :: fields
      position := ⟨1, 1⟩ }]⟩

/-- A source with a default in round brackets, and a list. -/
def notesSource : String :=
  "model note \x7b\n  body string @default(\"(draft) none\")\n  links note[]\n\x7d\n"

/-- The schema of that source. -/
def notes : Schema :=
  notesWith "(draft) none"
    [{ name := "links", typeName := "note", isArray := true, position := ⟨3, 3⟩ }]

theorem notes_compiles : notes.Compiles :=
  @Compiles.of_source notesSource _ notes (Text.toList_of_eq rfl) (by decide +kernel)

/-- The notes are shown as they are. -/
theorem notes_shown : notes.IsAccepted ∧ notes.HasUnmarkedDefaults ∧
    notes.texts =
      ["note", "body", "string", "default('(draft) none')", "note", "links", "note[]", ""] ∧
    ∀ w : World, (Command.printGrid (notes.table "Schema")).run w =
      (.ok (), { w with screen := w.screen ++ (notes.table "Schema").verbatim }) := by
  have hdefaults : notes.HasUnmarkedDefaults := by decide +kernel
  refine ⟨notes_compiles.isAccepted, hdefaults, by decide +kernel, fun w => ?_⟩
  obtain ⟨-, -, hshown, -, -, -, hplain⟩ := printGrid_table notes "Schema" w
  refine hshown (List.forall_mem_cons.mpr ⟨isPlain_of_isHarmless (by decide), ?_⟩)
  exact hplain notes_compiles.isAccepted hdefaults

/-- A source with a default that begins with a word in brackets. -/
def draftSource : String := "model note \x7b\n  body string @default(\"[draft] none\")\n\x7d\n"

/-- A source with a default that ends with a slash and a letter in brackets. -/
def seeSource : String := "model note \x7b\n  body string @default(\"see [/b]\")\n\x7d\n"

theorem draft_compiles : (notesWith "[draft] none" []).Compiles :=
  @Compiles.of_source draftSource _ _ (Text.toList_of_eq rfl) (by decide +kernel)

theorem see_compiles : (notesWith "see [/b]" []).Compiles :=
  @Compiles.of_source seeSource _ _ (Text.toList_of_eq rfl) (by decide +kernel)

/-- **Defaults as markup**: of the first default the word in brackets is not shown, and because of
the second the table fails. -/
theorem draft_hidden : ((notesWith "[draft] none" []).IsAccepted ∧
      (notesWith "[draft] none" []).texts = ["note", "body", "string", "default('[draft] none')"] ∧
      Grid.cell "default('[draft] none')" = .ok "default(' none')".toList) ∧
    (notesWith "see [/b]" []).IsAccepted ∧
    (notesWith "see [/b]" []).texts = ["note", "body", "string", "default('see [/b]')"] ∧
    ∀ w : World, (Command.printGrid ((notesWith "see [/b]" []).table "Schema")).run w =
      (.error (.markup (.unmatched "/b" 13)), w) := by
  refine ⟨⟨draft_compiles.isAccepted, by decide +kernel,
    Except.toOption_eq_some_iff.mp (by decide +kernel)⟩, see_compiles.isAccepted,
    by decide +kernel, fun w => ?_⟩
  have hfault : (match ((notesWith "see [/b]" []).table "Schema").render with
      | .ok _ => none
      | .error fault => some fault) = some (.unmatched "/b" 13) := by decide +kernel
  rw [Command.run_printGrid]
  cases hrender : ((notesWith "see [/b]" []).table "Schema").render with
  | ok text => rw [hrender] at hfault; cases hfault
  | error fault => rw [hrender] at hfault; cases hfault; rfl

end Schema

end Schemata
