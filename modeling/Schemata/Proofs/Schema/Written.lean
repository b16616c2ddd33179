import Schemata.Proofs.Schema.Isolation
import Schemata.Proofs.Schema.Recognition
import Schemata.Proofs.Schema.Spelling

/-!
# Proofs — schemas — what is written is read

A schema that the language can express is read again from any source that spells it, whatever the
layout, but for places and the texts of blocks; only a numeral without a point may have too many
digits to be read.  Tokens that have the words of a schema write it in the grammar
(`Spelling.writesModels_of_isSpelled`), and the grammar is what the reader recognizes.

* `Schema.reads_back` — so the schema is read, exactly if no numeral is too long.
-/

namespace Schemata

open Text Lexeme Grammar

/-! ### Numerals -/

theorem Token.word_eq_iff {t : Token} {kind : TokenKind} {text : String} :
    t.word = ⟨kind, text⟩ ↔ t.kind = kind ∧ t.text = text := Token.Word.mk.injEq _ _ _ _ ▸ Iff.rfl

/-- A numeral without a point has no more digits than are read. -/
def Token.Word.IsShort (w : Token.Word) : Prop :=
  w.kind = .numberLiteral → '.' ∉ w.text.toList → w.text.toList.length ≤ integerDigitLimit

theorem isRun_of_digits {cs : List Char} (hne : cs ≠ []) (h : IsDigits cs) : Numeral.IsRun cs :=
  ⟨hne, isDigit_of_digits h⟩

/-- A number that the language can spell is one, unless it is too long. -/
theorem Token.isNumber_iff_of_fits {t : Token} {armed : Bool} (h : t.word.Fits armed) :
    t.IsNumber ↔ t.word.IsShort := by
  have hdecimal : ∀ {cs : List Char}, IsDigits cs → ∀ c ∈ cs, c = '.' ∨ isDecimal c = true :=
    fun hcs c hc => .inr (isDecimal_of_digit (hcs c hc))
  -- all digits are decimal ones, so only their number counts
  have hiff : ∀ {text : List Char}, Numeral.IsWritten text →
      (∀ c ∈ text, c = '.' ∨ isDecimal c = true) → t.word = ⟨.numberLiteral, String.ofList text⟩ →
      (t.IsNumber ↔ t.word.IsShort) := by
    intro text hwritten hdigits hword
    obtain ⟨hkind, htext⟩ := Token.word_eq_iff.mp hword
    have hread := @Literal.exists_ofNumeral_iff (String.ofList text)
      (by rwa [String.toList_ofList])
    unfold Token.IsNumber Token.Word.IsShort
    rw [hword, hkind, htext, hread, String.toList_ofList, and_iff_right hdigits]
  have hother : t.word.kind ≠ .numberLiteral → (t.IsNumber ↔ t.word.IsShort) := fun hkind =>
    iff_of_true (Token.isNumber_of_ne hkind) fun hkind' => absurd hkind' hkind
  generalize hword : t.word = w at h hother
  cases h with
  | name => exact hother (ofWord_ne _).2.2.2
  | sign sign => exact hother (ofSign?_ne sign).2.2.2
  | integer some digits =>
      exact hword ▸ hiff (.inl (isRun_of_digits some digits)) (hdecimal digits) hword
  | @decimal ws ps some digits some' digits' =>
      refine hword ▸ hiff (.inr ⟨ws, ps, isRun_of_digits some digits, isRun_of_digits some' digits',
        rfl⟩) (List.forall_mem_append.mpr ⟨hdecimal digits, ?_⟩) hword
      exact List.forall_mem_cons.mpr ⟨.inl rfl, hdecimal digits'⟩
  | _ => exact hother (by simp)

/-- Digits that convert give the integer that they count. -/
theorem ofNumeral_of_digits {ds : List Char} (some : ds ≠ []) (digits : IsDigits ds)
    (h : ∃ v, Literal.ofNumeral (String.ofList ds) = .ok v) :
    Literal.ofNumeral (String.ofList ds) = .ok (.int (Nat.ofDigitChars 10 ds 0)) := by
  have hrun := isRun_of_digits some digits
  have hpoint : '.' ∉ ds := Numeral.not_mem_of_isDigit hrun.2 (by decide)
  have hlen : ds.length ≤ integerDigitLimit := by
    have := (@Literal.exists_ofNumeral_iff (String.ofList ds)
      (by rw [String.toList_ofList]; exact .inl hrun)).mp h
    rw [String.toList_ofList] at this
    exact this.2 hpoint
  rw [Literal.ofNumeral_ok_iff, String.toList_ofList, if_neg (by simpa using hpoint)]
  exact ⟨_, Numeral.integer_of_digits false some digits hlen, rfl⟩

theorem ofNumeral_of_decimal {ws ps : List Char} (some : ws ≠ []) (digits : IsDigits ws)
    (digits' : IsDigits ps) :
    Literal.ofNumeral (String.ofList (ws ++ '.' :: ps)) = .ok (.float (decimal ws ps)) := by
  rw [Literal.ofNumeral_ok_iff, String.toList_ofList, if_pos (by simp)]
  exact ⟨_, Numeral.fraction_of_digits false some digits digits', rfl⟩

/-! ### What decorators say in any order -/

namespace Field

variable {f : Field} {ds : List Decorator}

/-- No decorator of a field stands twice. -/
theorem nodup_decorators (f : Field) : (f.decorators.map Decorator.key).Nodup := by
  have hflag : ∀ (b : Bool) (d : Decorator),
      ((if b then [d] else []).map Decorator.key).Sublist [d.key] := fun b d => by
    cases b with
    | true => exact List.Sublist.refl _
    | false => exact List.nil_sublist _
  have hdefault : ((f.default.toList.map Decorator.default).map Decorator.key).Sublist
      ["default"] := by
    cases f.default with
    | none => exact List.nil_sublist _
    | some d => exact List.Sublist.refl _
  have hrelation : ((f.relation.toList.map Decorator.relation).map Decorator.key).Sublist
      ["relation"] := by
    cases f.relation with
    | none => exact List.nil_sublist _
    | some r => exact List.Sublist.refl _
  have hall : (f.decorators.map Decorator.key).Sublist
      ["primary_key", "unique", "required", "default", "relation"] := by
    unfold decorators
    rw [List.map_append, List.map_append, List.map_append, List.map_append]
    exact ((((hflag _ .primaryKey).append (hflag _ .unique)).append (hflag _ .required)).append
      hdefault).append hrelation
  exact hall.nodup (by decide)

/-- What is said at most once is the same in any order. -/
theorem findSome?_of_perm {α : Type} {g : Decorator → Option α} {a : Option α}
    (order : ds.Perm f.decorators) (h : f.decorators.filterMap g = a.toList) :
    ds.findSome? g = a := by
  have hperm : (ds.filterMap g).Perm a.toList := h ▸ order.filterMap g
  have heq : ds.filterMap g = a.toList := by
    cases a with
    | none => exact hperm.eq_nil
    | some a => exact List.perm_singleton.mp hperm
  rw [← List.head?_filterMap, heq]
  cases a <;> rfl

theorem any_of_perm {p : Decorator → Bool} {b : Bool} (order : ds.Perm f.decorators)
    (h : f.decorators.any p = b) : ds.any p = b := h ▸ order.any_eq

/-- A field that is written with the decorators of another, and with its name and type, is that
field. -/
theorem content_written {name : Token} {type : Reading.FieldType} {isArray : Bool}
    (order : ds.Perm f.decorators) (named : name.text = f.name) (typed : type.typeName = f.typeName)
    (marked : (type.isArray || isArray) = f.isArray)
    (shaped : Shape.contentOption type.shape = Shape.contentOption f.shape) :
    (Field.written name type isArray ds).content = f.content := by
  have hkey : ds.any Decorator.isPrimaryKey = f.isPrimaryKey := any_of_perm order (by
    unfold decorators
    cases f.isPrimaryKey <;> simp [Decorator.isPrimaryKey])
  have hunique : ds.any Decorator.isUnique = f.isUnique := any_of_perm order (by
    unfold decorators
    cases f.isUnique <;> simp [Decorator.isUnique])
  have hrequired : ds.any Decorator.isRequired = f.isRequired := any_of_perm order (by
    unfold decorators
    cases f.isRequired <;> simp [Decorator.isRequired])
  have hdefault : ds.findSome? Decorator.default? = f.default := findSome?_of_perm order (by
    unfold decorators
    cases f.default <;>
      simp [Decorator.default?, List.filterMap_cons, Function.comp_def,
        apply_ite (List.filterMap Decorator.default?)])
  have hrelation : ds.findSome? Decorator.relation? = f.relation := findSome?_of_perm order (by
    unfold decorators
    cases f.relation <;>
      simp [Decorator.relation?, List.filterMap_cons, Function.comp_def,
        apply_ite (List.filterMap Decorator.relation?)])
  unfold content written
  rw [hkey, hunique, hrequired, hdefault, hrelation, named, typed, marked, shaped]

end Field

namespace Spelling

/-! ### From words to the grammar -/

variable {ts : List Token} {ws : List Token.Word}

theorem exists_of_map_enclosed {a b : Token.Word} (h : ts.map Token.word = enclosed a b ws) :
    ∃ (opening : Token) (us : List Token) (closing : Token), ts = opening :: (us ++ [closing]) ∧
      opening.word = a ∧ us.map Token.word = ws ∧ closing.word = b := by
  obtain ⟨opening, vs, rfl, hopening, h⟩ := List.map_eq_cons_iff.mp h
  obtain ⟨us, rest, rfl, hus, h⟩ := List.map_eq_append_iff.mp h
  obtain ⟨closing, rfl, hclosing⟩ := List.map_eq_singleton_iff.mp h
  exact ⟨opening, us, closing, rfl, hopening, hus, hclosing⟩

theorem exists_of_map_parens (h : ts.map Token.word = parens ws) :
    ∃ (opening : Token) (us : List Token) (closing : Token), ts = opening :: (us ++ [closing]) ∧
      opening.kind = .openParen ∧ us.map Token.word = ws ∧ closing.kind = .closeParen := by
  obtain ⟨opening, us, closing, hts, hopening, hus, hclosing⟩ := exists_of_map_enclosed h
  exact ⟨opening, us, closing, hts, congrArg Token.Word.kind hopening, hus,
    congrArg Token.Word.kind hclosing⟩

theorem exists_of_map_brackets (h : ts.map Token.word = brackets ws) :
    ∃ (opening : Token) (us : List Token) (closing : Token), ts = opening :: (us ++ [closing]) ∧
      opening.kind = .openBracket ∧ us.map Token.word = ws ∧ closing.kind = .closeBracket := by
  obtain ⟨opening, us, closing, hts, hopening, hus, hclosing⟩ := exists_of_map_enclosed h
  exact ⟨opening, us, closing, hts, congrArg Token.Word.kind hopening, hus,
    congrArg Token.Word.kind hclosing⟩

theorem exists_of_map_name {text : String} (h : ts.map Token.word = name text :: ws) :
    ∃ (t : Token) (us : List Token), ts = t :: us ∧ t.kind = .ofWord text ∧ t.text = text ∧
      us.map Token.word = ws := by
  obtain ⟨t, us, hts, ht, hus⟩ := List.map_eq_cons_iff.mp h
  exact ⟨t, us, hts, congrArg Token.Word.kind ht, congrArg Token.Word.text ht, hus⟩

/-- Rows of parts that are spelled are rows of parts that are written, if each part is. -/
theorem writesRow_of_spellsRow {α β : Type} {Spells : List Token.Word → α → Prop}
    {Writes : List Token → α → Prop} {content : α → β} {as : List α} (h : SpellsRow Spells ws as)
    (hts : ts.map Token.word = ws) (hnumbers : ∀ t ∈ ts, t.IsNumber)
    (hpart : ∀ a ∈ as, ∀ us : List Token, (∀ t ∈ us, t.IsNumber) →
      Spells (us.map Token.word) a → ∃ b, Writes us b ∧ content b = content a) :
    ∃ bs, WritesRow Writes ts bs ∧ bs.map content = as.map content := by
  induction h generalizing ts with
  | nil =>
      obtain rfl := List.map_eq_nil_iff.mp hts
      exact ⟨[], .nil, rfl⟩
  | @cons ws vs a as head _ ih =>
      obtain ⟨us, us', rfl, rfl, hus'⟩ := List.map_eq_append_iff.mp hts
      obtain ⟨hfirst, hrest⟩ := List.forall_mem_append.mp hnumbers
      obtain ⟨ha, has⟩ := List.forall_mem_cons.mp hpart
      obtain ⟨b, hb, hcontent⟩ := ha us hfirst head
      obtain ⟨bs, hbs, hcontents⟩ := ih hus' hrest has
      exact ⟨b :: bs, .cons hb hbs, by rw [List.map_cons, List.map_cons, hcontent, hcontents]⟩

/-- Tokens that spell a default derive it, if their numbers convert. -/
theorem writesValue_of_spellsDefault {d : Default} (h : SpellsDefault ws d)
    (hts : ts.map Token.word = ws) (hnumbers : ∀ t ∈ ts, t.IsNumber) : WritesValue ts d := by
  cases h with
  | @literal w v spelled =>
      obtain ⟨t, rfl, hword⟩ := List.map_eq_singleton_iff.mp hts
      have hnumber : t.IsNumber := hnumbers t List.mem_cons_self
      have hkind : t.kind = w.kind := congrArg Token.Word.kind hword
      have htext : t.text = w.text := congrArg Token.Word.text hword
      cases spelled with
      | true => exact .true hkind htext
      | false => exact .false hkind htext
      | @int ds n some digits value =>
          refine .number hkind ?_
          have := hnumber hkind
          rw [htext] at this ⊢
          rw [value]
          exact ofNumeral_of_digits some digits this
      | @float ws ps some digits some' digits' =>
          refine .number hkind ?_
          rw [htext]
          exact ofNumeral_of_decimal some digits digits'
      | @text s plain =>
          obtain rfl : t.text = s := htext
          exact .string hkind
  | @call g =>
      obtain ⟨t, us, rfl, hkind, htext, hus⟩ := exists_of_map_name hts
      obtain ⟨opening, vs, closing, rfl, opens, hvs, closes⟩ := exists_of_map_parens hus
      obtain rfl := List.map_eq_nil_iff.mp hvs
      have hidentifier : TokenKind.ofWord g.name = .identifier := by cases g <;> rfl
      exact .call (hkind.trans hidentifier) htext opens closes

/-- Tokens that spell a decorator derive it, if their numbers convert. -/
theorem writesDecorator_of_spellsDecorator {d : Decorator} (h : SpellsDecorator ws d)
    (hkey : ∀ k key, d = .relation ⟨k, some key⟩ → IsName key)
    (hts : ts.map Token.word = ws) (hnumbers : ∀ t ∈ ts, t.IsNumber) : WritesDecorator ts d := by
  obtain ⟨saying⟩ := h
  obtain ⟨sign, us, rfl, hsign, hus⟩ := List.map_eq_cons_iff.mp hts
  refine .mk (congrArg Token.Word.kind hsign) ?_
  have hrelation : ∀ k : RelationKind, TokenKind.ofWord k.name = .identifier := fun k => by
    cases k <;> rfl
  cases saying with
  | primaryKey =>
      obtain ⟨t, vs, rfl, hkind, htext, hvs⟩ := exists_of_map_name hus
      obtain rfl := List.map_eq_nil_iff.mp hvs
      exact .primaryKey hkind htext
  | unique =>
      obtain ⟨t, vs, rfl, hkind, htext, hvs⟩ := exists_of_map_name hus
      obtain rfl := List.map_eq_nil_iff.mp hvs
      exact .unique hkind htext
  | required =>
      obtain ⟨t, vs, rfl, hkind, htext, hvs⟩ := exists_of_map_name hus
      obtain rfl := List.map_eq_nil_iff.mp hvs
      exact .required hkind htext
  | default value =>
      obtain ⟨t, vs, rfl, hkind, htext, hvs⟩ := exists_of_map_name hus
      obtain ⟨opening, inner, closing, rfl, opens, hinner, closes⟩ := exists_of_map_parens hvs
      refine .default hkind htext opens (writesValue_of_spellsDefault value hinner ?_) closes
      exact fun t ht => hnumbers t (by simp [ht])
  | relation =>
      obtain ⟨t, vs, rfl, hkind, htext, hvs⟩ := exists_of_map_name hus
      obtain rfl := List.map_eq_nil_iff.mp hvs
      exact .relation (hkind.trans (hrelation _)) htext
  | @keyedRelation k key =>
      obtain ⟨t, vs, rfl, hkind, htext, hvs⟩ := exists_of_map_name hus
      obtain ⟨opening, inner, closing, rfl, opens, hinner, closes⟩ := exists_of_map_parens hvs
      obtain ⟨u, rest, rfl, hkind', rfl, hrest⟩ := exists_of_map_name hinner
      obtain rfl := List.map_eq_nil_iff.mp hrest
      exact .keyedRelation (hkind.trans (hrelation _)) htext opens
        (hkind' ▸ (hkey k _ rfl).2) closes

/-- Tokens that spell an array mark derive it. -/
theorem writesMark_of_map {isArray : Bool} (h : ts.map Token.word = mark isArray) :
    WritesMark ts isArray := by
  cases isArray with
  | true =>
      obtain ⟨opening, us, closing, rfl, opens, hus, closes⟩ := exists_of_map_brackets h
      obtain rfl := List.map_eq_nil_iff.mp hus
      exact .present opens closes
  | false =>
      obtain rfl := List.map_eq_nil_iff.mp h
      exact .absent

/-- Tokens that spell the type of a field derive a type and an array mark that agree with it. -/
theorem writesType_of_spellsType {f : Field} (h : SpellsType ws f) (hf : f.IsExpressible)
    (hts : ts.map Token.word = ws) :
    ∃ us vs type isArray, ts = us ++ vs ∧ WritesType us type ∧ WritesMark vs isArray ∧
      type.typeName = f.typeName ∧ (type.isArray || isArray) = f.isArray ∧
      Shape.contentOption type.shape = Shape.contentOption f.shape := by
  cases h with
  | plain unshaped =>
      obtain ⟨t, vs, rfl, hkind, htext, hvs⟩ := exists_of_map_name hts
      have typed : WritesType [t] ⟨t.text, false, none⟩ := by
        have hname : t.kind.isName = true := hkind ▸ hf.isName_typeName.2
        unfold TokenKind.isName at hname
        rw [Bool.or_eq_true, Bool.or_eq_true, decide_eq_true_eq, decide_eq_true_eq] at hname
        rcases hname with (hprimitive | hjson) | hidentifier
        · exact .scalar hprimitive
        · -- a field of this type has a shape
          have := hf.shaped.mpr (eq_json_of_ofWord (hkind ▸ hjson))
          rw [unshaped] at this
          cases this
        · exact .model hidentifier
      exact ⟨[t], vs, _, f.isArray, rfl, typed, writesMark_of_map hvs, htext, rfl,
        by rw [unshaped]⟩
  | @json f s raw after shaped text marked =>
      obtain ⟨t, rest, rfl, hkind, htext, hrest⟩ := exists_of_map_name hts
      obtain ⟨us, rest, rfl, hus, hrest⟩ := List.map_eq_append_iff.mp hrest
      obtain ⟨block, vs, rfl, hblock, hvs⟩ := List.map_eq_cons_iff.mp hrest
      obtain ⟨raw', hraw⟩ := Token.word_eq_iff.mp hblock
      have hjson : f.typeName = "json" := hf.shaped.mp (by rw [shaped]; rfl)
      obtain ⟨s', hread, hcontent⟩ :=
        Shape.ofText_of_isText text (hf.shape s shaped).1 block.position
      have typed : WritesType (t :: (us ++ [block])) ⟨t.text, s.isArray, some s'⟩ :=
        .json (by rw [hkind, hjson]; rfl) (writesMark_of_map hus) raw' (by rw [hraw, hread])
      refine ⟨_, vs, _, after, by simp, typed, writesMark_of_map hvs, htext, marked.symm, ?_⟩
      rw [shaped]
      exact congrArg some hcontent

/-- Tokens that spell a field derive one with the same content, if their numbers convert. -/
theorem writesField_of_spellsField {f : Field} (h : SpellsField ws f) (hf : f.IsExpressible)
    (hts : ts.map Token.word = ws) (hnumbers : ∀ t ∈ ts, t.IsNumber) :
    ∃ g, WritesField ts g ∧ g.content = f.content := by
  obtain ⟨typed, order, said⟩ := h
  obtain ⟨first, rest, rfl, hkind, htext, hrest⟩ := exists_of_map_name hts
  obtain ⟨us, vs, rfl, hus, hvs⟩ := List.map_eq_append_iff.mp hrest
  obtain ⟨us, us', type, isArray, rfl, htype, hmark, hname, hmarked, hshaped⟩ :=
    writesType_of_spellsType typed hf hus
  have hkeys : ∀ d ∈ f.decorators, ∀ k key, d = .relation ⟨k, some key⟩ → IsName key := by
    rintro d hd k key rfl
    have hrelation : f.relation = some ⟨k, some key⟩ := by simpa [Field.decorators] using hd
    exact hf.keyed _ hrelation key rfl
  obtain ⟨ds', hds, heq⟩ := @writesRow_of_spellsRow vs _ _ _ _ WritesDecorator id _ said hvs
    (fun t ht => hnumbers t (by simp [ht])) fun d hd us hnumbers hus =>
      ⟨d, writesDecorator_of_spellsDecorator hus (hkeys d (order.mem_iff.mp hd)) rfl hnumbers, rfl⟩
  rw [List.map_id, List.map_id] at heq
  subst heq
  have hdistinct : (ds'.map Decorator.key).Nodup :=
    (order.map Decorator.key).nodup_iff.mpr f.nodup_decorators
  refine ⟨.written first type isArray ds', ?_,
    Field.content_written order htext hname hmarked hshaped⟩
  rw [List.append_assoc]
  exact .mk (hkind ▸ hf.named.2) htype hmark hds hdistinct

/-- Tokens that spell names with commas between them derive those names. -/
theorem writesNames_of_map {ns : List String} (hne : ns ≠ []) (hns : ∀ n ∈ ns, IsName n)
    (h : ts.map Token.word = names ns) : WritesNames ts ns := by
  induction ns generalizing ts with
  | nil => exact absurd rfl hne
  | cons n ns ih =>
      obtain ⟨hn, hrest⟩ := List.forall_mem_cons.mp hns
      cases ns with
      | nil =>
          obtain ⟨t, us, rfl, hkind, rfl, hus⟩ := exists_of_map_name h
          obtain rfl := List.map_eq_nil_iff.mp hus
          exact .last (hkind ▸ hn.2)
      | cons m ns =>
          obtain ⟨t, us, rfl, hkind, rfl, hus⟩ := exists_of_map_name h
          obtain ⟨separator, vs, rfl, hseparator, hvs⟩ := List.map_eq_cons_iff.mp hus
          exact .cons (hkind ▸ hn.2) (congrArg Token.Word.kind hseparator)
            (ih (List.cons_ne_nil m ns) hrest hvs)

theorem writesUnique_of_map {ns : List String} (hne : ns ≠ []) (hns : ∀ n ∈ ns, IsName n)
    (h : ts.map Token.word = parens (brackets (names ns))) : WritesUnique ts ns := by
  obtain ⟨paren, us, paren', rfl, opens, hus, closes⟩ := exists_of_map_parens h
  obtain ⟨bracket, vs, bracket', rfl, opens', hvs, closes'⟩ := exists_of_map_brackets hus
  rw [List.cons_append, List.append_assoc]
  exact .mk opens opens' (writesNames_of_map hne hns hvs) closes' closes

end Spelling

/-- The member without places and texts. -/
def Reading.Member.content : Reading.Member → Reading.Member
  | .field f => .field f.content
  | .unique names => .unique names

namespace Spelling

/-- Members with the same contents are fields with the same contents and the same lists of unique
names. -/
theorem content_members {ms ms' : List Reading.Member}
    (h : ms'.map Reading.Member.content = ms.map Reading.Member.content) :
    (ms'.filterMap Reading.Member.field?).map Field.content =
        (ms.filterMap Reading.Member.field?).map Field.content ∧
      ms'.filterMap Reading.Member.unique? = ms.filterMap Reading.Member.unique? := by
  have hfields : ∀ ms : List Reading.Member,
      (ms.filterMap Reading.Member.field?).map Field.content =
        (ms.map Reading.Member.content).filterMap Reading.Member.field? := fun ms => by
    rw [List.map_filterMap, List.filterMap_map]
    congr 1
    funext x
    cases x <;> rfl
  have huniques : ∀ ms : List Reading.Member, ms.filterMap Reading.Member.unique? =
      (ms.map Reading.Member.content).filterMap Reading.Member.unique? := fun ms => by
    rw [List.filterMap_map]
    congr 1
    funext x
    cases x <;> rfl
  exact ⟨by rw [hfields, hfields, h], by rw [huniques, huniques ms, h]⟩

/-- Tokens that spell a model derive one with the same content, if their numbers convert. -/
theorem writesModel_of_spellsModel {m : Model} (h : SpellsModel ws m) (hm : m.IsExpressible)
    (hts : ts.map Token.word = ws) (hnumbers : ∀ t ∈ ts, t.IsNumber) :
    ∃ m', WritesModel ts m' ∧ m'.content = m.content := by
  obtain ⟨members, fields, uniques⟩ := h
  obtain ⟨first, rest, rfl, begins, -, hrest⟩ := exists_of_map_name hts
  obtain ⟨second, rest, rfl, hkind, htext, hrest⟩ := exists_of_map_name hrest
  obtain ⟨opening, us, closing, rfl, hopening, hus, hclosing⟩ := exists_of_map_enclosed hrest
  obtain ⟨ms', hms, hcontent⟩ := @writesRow_of_spellsRow us _ _ _ _ WritesMember
    Reading.Member.content _ members hus (fun t ht => hnumbers t (by simp [ht])) fun x hx us hnumbers hspells => by
      generalize hvs : us.map Token.word = vs at hspells
      cases hspells with
      | field spelled =>
          have hf := hm.fields _ (by rw [← fields]; exact List.mem_filterMap.mpr ⟨_, hx, rfl⟩)
          obtain ⟨g, hg, hcontent⟩ := writesField_of_spellsField spelled hf hvs hnumbers
          exact ⟨.field g, .field hg, congrArg Reading.Member.field hcontent⟩
      | @unique ns =>
          obtain ⟨hne, hns⟩ := hm.uniques ns
            (by rw [← uniques]; exact List.mem_filterMap.mpr ⟨_, hx, rfl⟩)
          obtain ⟨t, us, rfl, ht, hus⟩ := List.map_eq_cons_iff.mp hvs
          obtain ⟨kind, text⟩ := Token.word_eq_iff.mp ht
          exact ⟨.unique ns, .unique kind text (writesUnique_of_map hne hns hus), rfl⟩
  obtain ⟨hfields, huniques⟩ := content_members hcontent
  refine ⟨_, .mk begins (hkind.trans hm.named.2) (congrArg Token.Word.kind hopening) hms
    (congrArg Token.Word.kind hclosing), ?_⟩
  unfold Model.content
  dsimp only
  rw [hfields, huniques, fields, uniques, htext]

/-- **From words to the grammar.**  Tokens that have the words of a schema write its models, if all
numbers are some. -/
theorem writesModels_of_isSpelled {s : Schema} (h : s.IsSpelled ws) (hs : s.IsExpressible)
    (hts : ts.map Token.word = ws) (hnumbers : ∀ t ∈ ts, t.IsNumber) :
    ∃ ms, WritesRow WritesModel ts ms ∧ ms.map Model.content = s.models.map Model.content :=
  writesRow_of_spellsRow h hts hnumbers fun m hm _ hnumbers hus =>
    writesModel_of_spellsModel hus (hs m hm) rfl hnumbers

end Spelling

/-! ### The numbers of the grammar -/

namespace Grammar

open Reading Token

variable {ts : List Token}

theorem isNumber_of_writesRow {α : Type} {Writes : List Token → α → Prop} {as : List α}
    (h : WritesRow Writes ts as) (hpart : ∀ us a, Writes us a → ∀ t ∈ us, t.IsNumber) :
    ∀ t ∈ ts, t.IsNumber := by
  induction h with
  | nil => exact fun t ht => absurd ht List.not_mem_nil
  | cons head _ ih => exact List.forall_mem_append.mpr ⟨hpart _ _ head, ih⟩

/-- Tokens of these kinds are no numbers. -/
theorem isNumber_of_kinds {us : List Token} (h : ∀ t ∈ us, t.kind ≠ .numberLiteral) :
    ∀ t ∈ us, t.IsNumber := fun t ht => isNumber_of_ne (h t ht)

/-- The numbers of a derived decorator convert. -/
theorem isNumber_of_writesDecorator {d : Decorator} (h : WritesDecorator ts d) :
    ∀ t ∈ ts, t.IsNumber := by
  have hvalue : ∀ {us : List Token} {v : Default}, WritesValue us v → ∀ t ∈ us, t.IsNumber := by
    intro us v hus
    cases hus with
    | number kind numeral => exact List.forall_mem_singleton.mpr fun _ => ⟨_, numeral⟩
    | string kind => exact isNumber_of_kinds (by simp [kind])
    | true kind => exact isNumber_of_kinds (by simp [kind])
    | false kind => exact isNumber_of_kinds (by simp [kind])
    | call kind _ opens closes => exact isNumber_of_kinds (by simp [kind, opens, closes])
  obtain ⟨signed, saying⟩ := h
  refine List.forall_mem_cons.mpr ⟨isNumber_of_ne (by simp [signed]), ?_⟩
  cases saying with
  | primaryKey kind => exact isNumber_of_kinds (by simp [kind])
  | unique kind => exact isNumber_of_kinds (by simp [kind])
  | required kind => exact isNumber_of_kinds (by simp [kind])
  | default kind _ opens value closes =>
      refine List.forall_mem_cons.mpr ⟨isNumber_of_ne (by simp [kind]), ?_⟩
      refine List.forall_mem_cons.mpr ⟨isNumber_of_ne (by simp [opens]), ?_⟩
      exact List.forall_mem_append.mpr ⟨hvalue value, isNumber_of_kinds (by simp [closes])⟩
  | relation kind => exact isNumber_of_kinds (by simp [kind])
  | @keyedRelation _ _ key _ _ kind _ opens named closes =>
      have hkey : key.kind ≠ .numberLiteral := ne_of_isName named rfl
      exact isNumber_of_kinds (by simp [kind, opens, hkey, closes])

theorem isNumber_of_writesMark {isArray : Bool} (h : WritesMark ts isArray) :
    ∀ t ∈ ts, t.IsNumber := by
  cases h with
  | absent => exact fun t ht => absurd ht List.not_mem_nil
  | present opens closes => exact isNumber_of_kinds (by simp [opens, closes])

/-- The numbers of a derived field convert. -/
theorem isNumber_of_writesField {f : Field} (h : WritesField ts f) : ∀ t ∈ ts, t.IsNumber := by
  have htype : ∀ {us : List Token} {type : FieldType}, WritesType us type →
      ∀ t ∈ us, t.IsNumber := by
    intro us type hus
    cases hus with
    | @scalar t kind =>
        refine isNumber_of_kinds (List.forall_mem_singleton.mpr fun hkind => ?_)
        rw [hkind] at kind
        cases kind
    | model kind => exact isNumber_of_kinds (by simp [kind])
    | json kind marked raw =>
        refine List.forall_mem_cons.mpr ⟨isNumber_of_ne (by simp [kind]), ?_⟩
        exact List.forall_mem_append.mpr
          ⟨isNumber_of_writesMark marked, isNumber_of_kinds (by simp [raw])⟩
  obtain ⟨named, typed, marked, decorated, -⟩ := h
  refine List.forall_mem_cons.mpr ⟨isNumber_of_ne (ne_of_isName named rfl), ?_⟩
  refine List.forall_mem_append.mpr ⟨htype typed, List.forall_mem_append.mpr
    ⟨isNumber_of_writesMark marked, ?_⟩⟩
  exact isNumber_of_writesRow decorated fun _ _ => isNumber_of_writesDecorator

/-- The numbers of a derived `@@unique` convert, for it has none. -/
theorem isNumber_of_writesUnique {names : List String} (h : WritesUnique ts names) :
    ∀ t ∈ ts, t.IsNumber := by
  have hnames : ∀ {us : List Token} {names : List String}, WritesNames us names →
      ∀ t ∈ us, t.kind ≠ .numberLiteral := by
    intro us names hus
    induction hus with
    | last named => simpa using ne_of_isName named rfl
    | cons named separated _ ih =>
        exact List.forall_mem_cons.mpr
          ⟨ne_of_isName named rfl, List.forall_mem_cons.mpr ⟨by simp [separated], ih⟩⟩
  obtain ⟨opens, opens', listed, closes', closes⟩ := h
  refine isNumber_of_kinds (List.forall_mem_cons.mpr ⟨by simp [opens], ?_⟩)
  refine List.forall_mem_cons.mpr ⟨by simp [opens'], List.forall_mem_append.mpr ⟨hnames listed, ?_⟩⟩
  simp [closes', closes]

/-- The numbers of a derived model convert. -/
theorem isNumber_of_writesModel {m : Model} (h : WritesModel ts m) : ∀ t ∈ ts, t.IsNumber := by
  obtain ⟨begins, named, opens, members, closes⟩ := h
  refine List.forall_mem_cons.mpr ⟨isNumber_of_ne (by simp [begins]), ?_⟩
  refine List.forall_mem_cons.mpr ⟨isNumber_of_ne (by simp [named]), ?_⟩
  refine List.forall_mem_cons.mpr ⟨isNumber_of_ne (by simp [opens]), ?_⟩
  refine List.forall_mem_append.mpr ⟨isNumber_of_writesRow members fun us x hx => ?_,
    isNumber_of_kinds (by simp [closes])⟩
  cases hx with
  | field written => exact isNumber_of_writesField written
  | unique kind _ listed =>
      exact List.forall_mem_cons.mpr
        ⟨isNumber_of_ne (by simp [kind]), isNumber_of_writesUnique listed⟩

end Grammar

/-! ### From a source to its schema -/

namespace Schema

variable {s : Schema} {ws : List Token.Word} {source : String}

/-- Tokens are read as models without a fault exactly if they write them. -/
theorem ofTokens_ok_iff {body : List Token} {stop : Token} {ms : List Model}
    (hbody : ∀ t ∈ body, t.kind ≠ .endOfInput) (hstop : stop.kind = .endOfInput) :
    Schema.ofTokens (body ++ [stop]) = .ok ⟨some ⟨ms⟩, []⟩ ↔ WritesRow WritesModel body ms := by
  rw [ofTokens_append hbody hstop, ← Reading.models_ok_iff hstop]
  cases Reading.models stop body with
  | ok r => simp [Except.map, Prod.ext_iff]
  | error e => simp [Except.map]

/-- A source that spells a schema is read as it, exactly if none of its numerals is too long. -/
theorem ofTokens_scan_iff (h : s.IsSpelled ws) (hs : s.IsExpressible)
    (hlaid : Token.Word.LaidOut ws source.toList) :
    (Token.scan source).faults = [] ∧
      ((∀ w ∈ ws, w.IsShort) ↔
        ∃ s', Schema.ofTokens (Token.scan source).tokens = .ok ⟨some s', []⟩ ∧
          s'.content = s.content) := by
  have hsteady := Spelling.steady_of_isSpelled h hs false
  obtain ⟨body, stop, htokens, hstop, hbody, hwords, hfaults⟩ :=
    Token.Word.scan_of_laidOut hlaid hsteady
  refine ⟨hfaults, ?_⟩
  have hnumbers : (∀ w ∈ ws, w.IsShort) ↔ ∀ t ∈ body, t.IsNumber := by
    subst hwords
    rw [List.forall_mem_map]
    refine forall₂_congr fun t ht => ?_
    obtain ⟨armed, hfits⟩ := hsteady.exists_fits _ (List.mem_map_of_mem ht)
    exact (Token.isNumber_iff_of_fits hfits).symm
  rw [hnumbers, htokens]
  constructor
  · intro hall
    obtain ⟨ms, hms, hcontent⟩ := Spelling.writesModels_of_isSpelled h hs hwords hall
    exact ⟨⟨ms⟩, (ofTokens_ok_iff hbody hstop).mpr hms, congrArg Schema.mk hcontent⟩
  · rintro ⟨⟨ms⟩, hms, -⟩
    exact isNumber_of_writesRow ((ofTokens_ok_iff hbody hstop).mp hms)
      fun _ _ => isNumber_of_writesModel

/-- **Written schemas read back.**  Every schema that the language can express has a source.
Whatever words spell it, in whatever layout, the scanner drops nothing; and it is read without a
fault, as the same schema but for places and the texts of blocks, exactly if no numeral without a
point has more digits than are read. -/
theorem reads_back (hs : s.IsExpressible) :
    (∃ ws source, s.IsSpelled ws ∧ Token.Word.LaidOut ws (String.toList source)) ∧
      ∀ ws (source : String), s.IsSpelled ws → Token.Word.LaidOut ws source.toList →
        (Token.scan source).faults = [] ∧
          ((∀ w ∈ ws, w.IsShort) ↔
            ∃ s', Schema.ofTokens (Token.scan source).tokens = .ok ⟨some s', []⟩ ∧
              s'.content = s.content) := by
  constructor
  · obtain ⟨ws, hws⟩ := exists_isSpelled hs
    refine ⟨ws, String.ofList (spaced Token.Word.spelled ws), hws, ?_⟩
    rw [String.toList_ofList]
    exact Token.Word.laidOut_spaced ws
  · exact fun ws source h hlaid => ofTokens_scan_iff h hs hlaid

/-- A model with most of what the language has, where `json` is the name of a field and of a key. -/
def note : Schema :=
  { models :=
      [{ name := "note"
         fields :=
          [{ name := "id", typeName := "int", isPrimaryKey := true
             default := some (.call .autoincrement) },
           { name := "json", typeName := "json", isArray := true
             shape := some ⟨"", true, [⟨"tag", "string", true, false, none⟩], .nowhere⟩ },
           { name := "rank", typeName := "float", isRequired := true
             default := some (.literal (.float (decimal ['1'] ['5']))) },
           { name := "owner", typeName := "user"
             relation := some ⟨.manyToOne, some "json"⟩ }]
         uniques := [["id", "json"]] }] }

/-- **The schema of notes reads back** from a source that spells it. -/
theorem note_reads_back :
    note.IsExpressible ∧
      ∃ ws source, note.IsSpelled ws ∧ Token.Word.LaidOut ws (String.toList source) ∧
        (Token.scan source).faults = [] ∧
        ((∀ w ∈ ws, w.IsShort) ↔
          ∃ s', Schema.ofTokens (Token.scan source).tokens = .ok ⟨some s', []⟩ ∧
            s'.content = note.content) := by
  have hshape : Shape.IsExpressible ⟨"", true, [⟨"tag", "string", true, false, none⟩], .nowhere⟩ :=
    .leaf ⟨'t', ['a', 'g'], rfl, by decide, List.all_eq_true.mp (by decide)⟩
      ⟨'s', ['t', 'r', 'i', 'n', 'g'], rfl, by decide, List.all_eq_true.mp (by decide)⟩
      List.not_mem_nil .nil
  have hfields : ∀ m ∈ note.models, ∀ f ∈ m.fields, f.IsExpressible := by
    refine List.forall_mem_singleton.mpr ?_
    refine List.forall_mem_cons.mpr ⟨⟨by decide, .inl rfl, nofun, nofun, by decide, nofun⟩, ?_⟩
    refine List.forall_mem_cons.mpr ⟨⟨by decide, .inl rfl, nofun, nofun, by decide, ?_⟩, ?_⟩
    · rintro s ⟨⟩
      exact ⟨hshape, fun _ => rfl⟩
    refine List.forall_mem_cons.mpr ⟨⟨by decide, .inl rfl, nofun, ?_, by decide, nofun⟩, ?_⟩
    · rintro v ⟨⟩
      exact ⟨['1'], ['5'], by decide, List.forall_mem_singleton.mpr (by decide), by decide,
        List.forall_mem_singleton.mpr (by decide), rfl⟩
    refine List.forall_mem_singleton.mpr ⟨by decide, .inr (by decide), ?_, nofun, by decide, nofun⟩
    rintro r ⟨⟩ key ⟨⟩
    decide
  have hplain : note.IsExpressible := List.forall_mem_singleton.mpr
    ⟨by decide, hfields _ List.mem_cons_self, by decide⟩
  obtain ⟨⟨ws, source, h, hlaid⟩, hread⟩ := reads_back hplain
  obtain ⟨hfaults, hiff⟩ := hread ws source h hlaid
  exact ⟨hplain, ws, source, h, hlaid, hfaults, hiff⟩

/-- A number with a default of these digits. -/
def count (ds : List Char) : Field :=
  { name := "n", typeName := "int"
    default := some (.literal (.int (Nat.ofDigitChars 10 ds 0))) }

/-- A model of that number alone. -/
def tally (ds : List Char) : Schema := ⟨[{ name := "t", fields := [count ds] }]⟩

/-- The words of the model, the digits being those of the default. -/
def tallyWords (ds : List Char) : List Token.Word :=
  Spelling.name "model" :: Spelling.name "t" :: Spelling.braces
    (Spelling.name "n" :: Spelling.name "int" :: Spelling.atSign :: Spelling.name "default" ::
      Spelling.parens [⟨.numberLiteral, String.ofList ds⟩])

theorem isExpressible_tally (ds : List Char) : (tally ds).IsExpressible := by
  have hmodel : IsIdentifier "t" := by decide
  have hfield : IsName "n" := by decide
  have hint : "int" ≠ "json" := by decide
  refine List.forall_mem_singleton.mpr ⟨hmodel, List.forall_mem_singleton.mpr
    ⟨hfield, .inl rfl, nofun, ?_, iff_of_false nofun hint, nofun⟩, nofun⟩
  rintro v ⟨⟩
  exact Int.natCast_nonneg _

/-- The words of a tally spell it. -/
theorem isSpelled_tally {ds : List Char} (some : ds ≠ []) (digits : IsDigits ds) :
    (tally ds).IsSpelled (tallyWords ds) := by
  have said : Spelling.SpellsRow Spelling.SpellsDecorator
      (Spelling.atSign :: Spelling.name "default" ::
        Spelling.parens [⟨.numberLiteral, String.ofList ds⟩])
      (count ds).decorators := .singleton (.mk (.default (.literal (.int some digits rfl))))
  have typed : Spelling.SpellsType [Spelling.name "int"] (count ds) :=
    @Spelling.SpellsType.plain (count ds) rfl
  have field := Spelling.SpellsField.mk typed (List.Perm.refl _) said
  exact .singleton (@Spelling.SpellsModel.mk _ ⟨"t", [count ds], [], .nowhere⟩ _
    (.singleton (.field field)) rfl rfl)

/-- With one digit more than are read, the number is lost. -/
theorem tally_lost :
    (tally (List.replicate (integerDigitLimit + 1) '1')).IsExpressible ∧
      ∃ ws source,
        (tally (List.replicate (integerDigitLimit + 1) '1')).IsSpelled ws ∧
        Token.Word.LaidOut ws (String.toList source) ∧
        ¬ ∃ s', Schema.ofTokens (Token.scan source).tokens = .ok ⟨some s', []⟩ ∧
          s'.content = (tally (List.replicate (integerDigitLimit + 1) '1')).content := by
  generalize hds : List.replicate (integerDigitLimit + 1) '1' = ds
  have digits : IsDigits ds := fun c hc => by
    rw [← hds] at hc
    rw [List.eq_of_mem_replicate hc]
    decide
  have hlen : ds.length = integerDigitLimit + 1 := by rw [← hds, List.length_replicate]
  have some : ds ≠ [] := List.ne_nil_of_length_eq_add_one hlen
  have hpoint : '.' ∉ ds := fun hmem => absurd (digits _ hmem) (by decide)
  have hlaid := Token.Word.laidOut_spaced (tallyWords ds)
  rw [← String.toList_ofList (l := spaced Token.Word.spelled (tallyWords ds))] at hlaid
  have hspelled := isSpelled_tally some digits
  refine ⟨isExpressible_tally ds, _, _, hspelled, hlaid, fun hread => ?_⟩
  -- the numeral has one digit too many
  have hshort := (ofTokens_scan_iff hspelled (isExpressible_tally ds) hlaid).2.mpr hread
    ⟨.numberLiteral, String.ofList ds⟩ (by simp [tallyWords, Spelling.braces, Spelling.parens,
      Spelling.enclosed])
  have := hshort rfl (by rwa [String.toList_ofList])
  rw [String.toList_ofList, hlen] at this
  exact absurd this (Nat.not_succ_le_self _)

end Schema

end Schemata
