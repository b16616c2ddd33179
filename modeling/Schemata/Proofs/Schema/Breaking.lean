import Schemata.Proofs.Number.Numerals
import Schemata.Proofs.Outcome
import Schemata.Proofs.Schema.Rounds
import Schemata.Proofs.Token.Spans

/-!
# Proofs — schemas — what breaks the reading

A source is compiled or it is not, and only a number stands in the way: one that is the value of a
default and stands for none.  The reader is led to it through models and members, whether they are
well formed or not (`Reading.LeadsTo`), and then through the part of a field that is
(`Grammar.LeadsToNumber`).

* `Reading.fieldNamed_broken_iff`, `Reading.models_error_iff_leadsTo` — which number it is.
* `Lexeme.isWritten_of_first` — what the scanner takes for a number.
* `compile_answers` — when a source is compiled, and what is said of it then.
-/

namespace Schemata

open Text

namespace Grammar

/-- What comes after the name of a field, as far as a number that is the value of its default: the
type, perhaps an array mark, other decorators, and `@default (` with the number. -/
inductive LeadsToNumber : List Token → Token → Prop
  | mk {ts us vs rest : List Token} {sign word paren number : Token} {type : Reading.FieldType}
      {isArray : Bool} {ds : List Decorator} (typed : WritesType ts type)
      (marked : WritesMark us isArray) (decorated : WritesRow WritesDecorator vs ds)
      (distinct : (ds.map Decorator.key).Nodup) (fresh : "default" ∉ ds.map Decorator.key)
      (signed : sign.kind = .atSign) (kind : word.kind = .identifier) (text : word.text = "default")
      (opens : paren.kind = .openParen) (numeral : number.kind = .numberLiteral) :
      LeadsToNumber (ts ++ (us ++ (vs ++ sign :: word :: paren :: number :: rest))) number

end Grammar

namespace Reading

open Rule Grammar

variable {stop : Token} {ts : List Token} {e : NumeralFault}

/-! ### Inside a field -/

/-- The value of a default breaks exactly at a number that comes next and breaks. -/
theorem defaultValue_broken_iff (hstop : stop.kind = .endOfInput) :
    defaultValue stop ts = .broken e ↔ ∃ number rest, ts = number :: rest ∧ number.Breaks e := by
  unfold defaultValue
  cases ts with
  | nil =>
      rw [peek_bind_nil, if_neg (by simp [hstop]), if_neg (by simp [hstop]),
        if_neg (by simp [hstop]), hstop]
      simp [fail]
  | cons t ts =>
      rw [peek_bind_cons]
      constructor
      · intro h
        split at h
        next kind =>
            rw [skip_bind_cons] at h
            rcases bind_broken_iff.mp h with h | ⟨_, _, -, h⟩
            · unfold ofNumeral at h
              cases hnumeral : Literal.ofNumeral t.text with
              | ok v => rw [hnumeral] at h; cases h
              | error e' =>
                  rw [hnumeral] at h
                  cases h
                  exact ⟨t, ts, rfl, kind, hnumeral⟩
            · cases h
        split at h
        · rw [skip_bind_cons] at h
          cases h
        split at h
        · rw [skip_bind_cons] at h
          cases h
        by_cases kind : t.kind = .identifier
        · rw [kind] at h
          cases hname : Generator.ofName? t.text with
          | none => rw [hname] at h; cases h
          | some g =>
              rw [hname] at h
              dsimp only at h
              rw [skip_bind_cons] at h
              rcases bind_broken_iff.mp h with h | ⟨_, _, -, h⟩
              · exact absurd h expectWhere_ne_broken
              rcases bind_broken_iff.mp h with h | ⟨_, _, -, h⟩
              · exact absurd h expectWhere_ne_broken
              · cases h
        · cases hkind : t.kind <;> rw [hkind] at h <;> first | exact absurd hkind kind | cases h
      · rintro ⟨number, rest, hts, kind, hnumeral⟩
        obtain ⟨rfl, rfl⟩ := List.cons.inj hts
        rw [if_pos kind, skip_bind_cons, bind_broken_iff, hnumeral]
        exact .inl rfl

/-- The argument of a default breaks exactly at a number in its parentheses that breaks. -/
theorem defaultArgument_broken_iff (hstop : stop.kind = .endOfInput) :
    defaultArgument stop ts = .broken e ↔
      ∃ paren number rest, ts = paren :: number :: rest ∧ paren.kind = .openParen ∧
        number.Breaks e := by
  unfold defaultArgument
  rw [expect_bind_broken_iff hstop (by decide)]
  constructor
  · rintro ⟨paren, us, rfl, opens, h⟩
    rcases bind_broken_iff.mp h with h | ⟨_, _, -, h⟩
    · obtain ⟨number, rest, rfl, hnumber⟩ := (defaultValue_broken_iff hstop).mp h
      exact ⟨paren, number, rest, rfl, opens, hnumber⟩
    rcases bind_broken_iff.mp h with h | ⟨_, _, -, h⟩
    · exact absurd h expectWhere_ne_broken
    · cases h
  · rintro ⟨paren, number, rest, rfl, opens, hnumber⟩
    exact ⟨paren, _, rfl, opens,
      bind_broken_iff.mpr (.inl ((defaultValue_broken_iff hstop).mpr ⟨number, rest, rfl, hnumber⟩))⟩

/-- A relation's key breaks at no number. -/
theorem relationKey_ne_broken : relationKey stop ts ≠ .broken e := by
  intro h
  unfold relationKey at h
  rcases bind_broken_iff.mp h with h | ⟨_, _, -, h⟩
  · cases h
  split at h
  · rcases bind_broken_iff.mp h with h | ⟨_, _, -, h⟩
    · cases h
    rcases bind_broken_iff.mp h with h | ⟨_, _, -, h⟩
    · exact expectWhere_ne_broken h
    rcases bind_broken_iff.mp h with h | ⟨_, _, -, h⟩
    · exact expectWhere_ne_broken h
    · cases h
  · cases h

/-- A decorator breaks exactly if it is a default and its argument breaks. -/
theorem decoratorNamed_broken_iff {t : Token} :
    decoratorNamed t stop ts = .broken e ↔
      t.text = "default" ∧ defaultArgument stop ts = .broken e := by
  unfold decoratorNamed
  constructor
  · intro h
    cases hname : RelationKind.ofName? t.text with
    | some k =>
        rw [hname] at h
        rcases bind_broken_iff.mp h with h | ⟨_, _, -, h⟩
        · exact absurd h relationKey_ne_broken
        · cases h
    | none =>
        rw [hname] at h
        dsimp only at h
        split at h
        · cases h
        split at h
        · cases h
        split at h
        · cases h
        split at h
        next text =>
            rcases bind_broken_iff.mp h with h | ⟨_, _, -, h⟩
            · exact ⟨text, h⟩
            · cases h
        next => cases h
  · rintro ⟨text, h⟩
    have hplain : RelationKind.ofName? t.text = none := by rw [text]; rfl
    rw [hplain]
    dsimp only
    rw [if_neg (by rw [text]; decide), if_neg (by rw [text]; decide), if_neg (by rw [text]; decide),
      if_pos text, bind_broken_iff]
    exact .inl h

/-- The name of the decorator that gives a default is its key. -/
theorem decoratorKey_default : decoratorKey "default" = "default" := by decide

/-- A decorator breaks exactly as the first `default` of the field, at a number that breaks. -/
theorem decorator_broken_iff (hstop : stop.kind = .endOfInput) {seen : List String} :
    decorator seen stop ts = .broken e ↔
      ∃ (word paren number : Token) (rest : List Token), ts = word :: paren :: number :: rest ∧
        word.kind = .identifier ∧ word.text = "default" ∧ "default" ∉ seen ∧
        paren.kind = .openParen ∧ number.Breaks e := by
  unfold decorator
  rw [expect_bind_broken_iff hstop (by decide)]
  constructor
  · rintro ⟨word, us, rfl, kind, h⟩
    split at h
    · cases h
    next hseen =>
        rcases bind_broken_iff.mp h with h | ⟨_, _, -, h⟩
        · obtain ⟨text, h⟩ := decoratorNamed_broken_iff.mp h
          obtain ⟨paren, number, rest, rfl, opens, hnumber⟩ :=
            (defaultArgument_broken_iff hstop).mp h
          rw [text, decoratorKey_default] at hseen
          exact ⟨word, paren, number, rest, rfl, kind, text, by simpa using hseen, opens, hnumber⟩
        · cases h
  · rintro ⟨word, paren, number, rest, rfl, kind, text, hseen, opens, hnumber⟩
    refine ⟨word, _, rfl, kind, ?_⟩
    rw [text, decoratorKey_default, if_neg (by simpa using hseen), bind_broken_iff]
    exact .inl (decoratorNamed_broken_iff.mpr
      ⟨text, (defaultArgument_broken_iff hstop).mpr ⟨paren, number, rest, rfl, opens, hnumber⟩⟩)

/-- Decorators break exactly at the first `default`, behind decorators that are read, at a number
that breaks. -/
theorem decorators_broken_iff (hstop : stop.kind = .endOfInput) {seen : List String} :
    decorators seen stop ts = .broken e ↔
      ∃ (vs : List Token) (ds : List Decorator) (sign word paren number : Token)
        (rest : List Token),
        ts = vs ++ sign :: word :: paren :: number :: rest ∧ WritesRow WritesDecorator vs ds ∧
        (ds.map Decorator.key).Nodup ∧ (∀ d ∈ ds, d.key ∉ seen) ∧
        "default" ∉ ds.map Decorator.key ∧ "default" ∉ seen ∧ sign.kind = .atSign ∧
        word.kind = .identifier ∧ word.text = "default" ∧ paren.kind = .openParen ∧
        number.Breaks e := by
  constructor
  · intro h
    fun_induction decorators seen stop ts with
    | case4 seen t ts signed key d mid hd _ e' hes ih =>
        cases h
        obtain ⟨us, rfl, saying, rfl, hseen⟩ := writesSaying_of_decorator hstop hd
        obtain ⟨vs, ds, sign, word, paren, number, rest, rfl, row, distinct, hnew, fresh, hfresh,
          hnumber⟩ := ih hes
        rw [List.mem_cons, not_or] at hfresh
        refine ⟨t :: us ++ vs, d :: ds, sign, word, paren, number, rest, by simp,
          .cons (.mk signed saying) row, ?_, ?_, ?_, hfresh.2, hnumber⟩
        · refine List.nodup_cons.mpr ⟨fun hmem => ?_, distinct⟩
          obtain ⟨d', hd', hkey⟩ := List.mem_map.mp hmem
          exact hnew d' hd' (hkey ▸ List.mem_cons_self)
        · exact List.forall_mem_cons.mpr
            ⟨hseen, fun d' hd' hmem => hnew d' hd' (List.mem_cons_of_mem _ hmem)⟩
        · rw [List.map_cons, List.mem_cons, not_or]
          exact ⟨hfresh.1, fresh⟩
    | case6 seen t ts signed e' hd =>
        cases h
        obtain ⟨word, paren, number, rest, rfl, kind, text, fresh, opens, hnumber⟩ :=
          (decorator_broken_iff hstop).mp hd
        exact ⟨[], [], t, word, paren, number, rest, rfl, .nil, List.nodup_nil,
          fun d hd => absurd hd List.not_mem_nil, List.not_mem_nil, fresh, signed, kind, text,
          opens, hnumber⟩
    | case1 | case2 | case3 | case5 | case7 => cases h
  · rintro ⟨vs, ds, sign, word, paren, number, rest, rfl, row, distinct, hnew, fresh, hfresh,
      signed, kind, text, opens, hnumber⟩
    induction row generalizing seen with
    | nil =>
        rw [List.nil_append, decorators, if_pos signed]
        have hd : decorator seen stop (word :: paren :: number :: rest) = .broken e :=
          (decorator_broken_iff hstop).mpr
            ⟨word, paren, number, rest, rfl, kind, text, hfresh, opens, hnumber⟩
        split
        next heq => rw [hd] at heq; cases heq
        next heq => rw [hd] at heq; cases heq
        next heq =>
            rw [hd] at heq
            cases heq
            rfl
    | @cons ts us d ds head tail ih =>
        obtain ⟨signed', saying⟩ := head
        rw [List.map_cons, List.nodup_cons] at distinct
        obtain ⟨hseen, hnew⟩ := List.forall_mem_cons.mp hnew
        rw [List.map_cons, List.mem_cons, not_or] at fresh
        have hfresh' : "default" ∉ d.key :: seen := by
          rw [List.mem_cons, not_or]
          exact ⟨fresh.1, hfresh⟩
        have hnew' : ∀ d' ∈ ds, d'.key ∉ d.key :: seen := fun d' hd' hmem => by
          rcases List.mem_cons.mp hmem with heq | hmem
          · exact distinct.1 (heq ▸ List.mem_map_of_mem hd')
          · exact hnew d' hd' hmem
        -- another decorator comes next, so a relation without a key ends here
        have hnext : ∀ u ∈ (us ++ sign :: word :: paren :: number :: rest).head?,
            u.kind ≠ .openParen := by
          cases tail with
          | nil =>
              rintro u ⟨⟩
              simp [signed]
          | cons head =>
              obtain ⟨signed'', -⟩ := head
              rintro u ⟨⟩
              simp [signed'']
        have hd := decorator_of_writesSaying hstop saying hseen hnext
        rw [List.append_assoc, List.cons_append, decorators, if_pos signed']
        split
        next heq =>
            rw [hd] at heq
            cases heq
            rw [ih distinct.2 hnew' fresh.2 hfresh']
        next heq => rw [hd] at heq; cases heq
        next heq => rw [hd] at heq; cases heq

theorem arrayMark_ne_broken : arrayMark stop ts ≠ .broken e := by
  intro h
  unfold arrayMark at h
  split at h
  · split at h <;> cases h
  · cases h

theorem shape_ne_broken {isArray : Bool} : shape isArray stop ts ≠ .broken e := by
  intro h
  unfold shape at h
  rcases bind_broken_iff.mp h with h | ⟨t, _, -, h⟩
  · cases h
  split at h
  · rcases bind_broken_iff.mp h with h | ⟨_, _, -, h⟩
    · cases h
    cases hshape : Shape.ofText t.text t.position isArray <;> rw [hshape] at h <;> cases h
  · cases h

/-- A type breaks at no number. -/
theorem plainType_ne_broken : plainType stop ts ≠ .broken e := by
  intro h
  unfold plainType at h
  rcases bind_broken_iff.mp h with h | ⟨t, mid, -, h⟩
  · cases h
  split at h
  · cases h
  split at h
  · rcases bind_broken_iff.mp h with h | ⟨_, _, -, h⟩
    · cases h
    rcases bind_broken_iff.mp h with h | ⟨_, _, -, h⟩
    · exact arrayMark_ne_broken h
    rcases bind_broken_iff.mp h with h | ⟨_, _, -, h⟩
    · exact shape_ne_broken h
    · cases h
  · cases h

/-- **A field is broken** by a number that is none, and the tokens before it are well formed. -/
theorem fieldNamed_broken_iff (hstop : stop.kind = .endOfInput) {name : Token} :
    fieldNamed name stop ts = .broken e ↔ ∃ number, LeadsToNumber ts number ∧ number.Breaks e := by
  unfold fieldNamed
  constructor
  · intro h
    rcases bind_broken_iff.mp h with h | ⟨type, mid, htype, hmarks⟩
    · exact absurd h plainType_ne_broken
    rcases bind_broken_iff.mp hmarks with h | ⟨isArray, mid', hmark, hdecorators⟩
    · exact absurd h arrayMark_ne_broken
    rcases bind_broken_iff.mp hdecorators with hbroken | ⟨_, _, -, h⟩
    · obtain ⟨us, rfl, typed⟩ := (plainType_read_iff hstop).mp htype
      obtain ⟨vs, rfl, marked⟩ := writesMark_of_read hmark
      obtain ⟨ws, ds, sign, word, paren, number, rest, rfl, row, distinct, -, fresh, -, signed, kind,
        text, opens, hnumber⟩ := (decorators_broken_iff hstop).mp hbroken
      exact ⟨number, .mk typed marked row distinct fresh signed kind text opens hnumber.1, hnumber⟩
    · cases h
  · rintro ⟨number, h, hnumber⟩
    cases h with
    | @mk us vs ws rest sign word paren _ type isArray ds typed marked row distinct fresh signed
        kind text opens numeral =>
        have hnext : ∀ t ∈ (ws ++ sign :: word :: paren :: number :: rest).head?,
            t.kind ≠ .openBracket := by
          cases row with
          | nil =>
              rintro t ⟨⟩
              simp [signed]
          | cons head =>
              obtain ⟨signed', -⟩ := head
              rintro t ⟨⟩
              simp [signed']
        refine bind_broken_iff.mpr (.inr ⟨type, _, (plainType_read_iff hstop).mpr ⟨us, rfl, typed⟩, ?_⟩)
        refine bind_broken_iff.mpr (.inr ⟨isArray, _, arrayMark_of_writesMark marked hnext, ?_⟩)
        refine bind_broken_iff.mpr (.inl ((decorators_broken_iff hstop).mpr ?_))
        exact ⟨ws, ds, sign, word, paren, number, rest, rfl, row, distinct,
          fun _ _ => List.not_mem_nil, fresh, List.not_mem_nil, signed, kind, text, opens, hnumber⟩

/-! ### Inside a schema -/

/-- The front of a model breaks at no number. -/
theorem modelHead_ne_broken : modelHead stop ts ≠ .broken e := by
  intro h
  unfold modelHead at h
  rcases bind_broken_iff.mp h with h | ⟨_, _, -, h⟩
  · exact expectWhere_ne_broken h
  rcases bind_broken_iff.mp h with h | ⟨_, _, -, h⟩
  · exact expectWhere_ne_broken h
  rcases bind_broken_iff.mp h with h | ⟨_, _, -, h⟩
  · exact expectWhere_ne_broken h
  · cases h

/-- A model breaks exactly if it has a front and its members break. -/
theorem model_broken_iff (hstop : stop.kind = .endOfInput) :
    (model stop ts).reading = .broken e ↔
      ∃ first name opening inner, ts = first :: name :: opening :: inner ∧ first.kind = .model ∧
        name.kind = .identifier ∧ opening.kind = .openBrace ∧
        (members name.text stop inner).reading = .broken e := by
  unfold model
  constructor
  · intro h
    split at h
    next first name inner hhead =>
        obtain ⟨opening, rfl, begins, named, opens⟩ := (modelHead_read_iff hstop).mp hhead
        refine ⟨first, name, opening, inner, rfl, begins, named, opens, ?_⟩
        split at h
        next => cases h
        next => cases h
        next hmembers =>
            rw [hmembers]
            cases h
            rfl
    next => cases h
    next hhead => exact absurd hhead modelHead_ne_broken
  · rintro ⟨first, name, opening, inner, rfl, begins, named, opens, h⟩
    rw [(modelHead_read_iff hstop).mpr ⟨opening, rfl, begins, named, opens⟩]
    dsimp only
    split
    next hmembers => rw [hmembers] at h; cases h
    next hmembers => rw [hmembers] at h; cases h
    next hmembers =>
        rw [hmembers] at h
        cases h
        rfl

/-- The reader is led to a number: turns lead to a model, rounds to one of its fields, and there the
number is the value of a default. -/
inductive LeadsTo (stop : Token) (ts : List Token) (number : Token) : Prop
  | mk {first name opening field : Token} {inner us : List Token}
      (turns : Turns stop ts (first :: name :: opening :: inner)) (begins : first.kind = .model)
      (named : name.kind = .identifier) (opens : opening.kind = .openBrace)
      (rounds : Rounds stop inner (field :: us)) (naming : field.kind.isName)
      (leads : LeadsToNumber us number) : LeadsTo stop ts number

/-- **Only a number breaks the reading**, one that is none and that the reader is led to. -/
theorem models_error_iff_leadsTo (hstop : stop.kind = .endOfInput) :
    Reading.models stop ts = .error e ↔ ∃ number, LeadsTo stop ts number ∧ number.Breaks e := by
  rw [models_error_iff]
  constructor
  · rintro ⟨t, us, turns, h⟩
    obtain ⟨first, name, opening, inner, heq, begins, named, opens, h⟩ :=
      (model_broken_iff hstop).mp h
    obtain ⟨field, vs, rounds, naming, h⟩ := members_broken_iff.mp h
    obtain ⟨number, leads, hnumber⟩ := (fieldNamed_broken_iff hstop).mp h
    exact ⟨number, .mk (heq ▸ turns) begins named opens rounds naming leads, hnumber⟩
  · rintro ⟨number, ⟨turns, begins, named, opens, rounds, naming, leads⟩, hnumber⟩
    refine ⟨_, _, turns, (model_broken_iff hstop).mpr
      ⟨_, _, _, _, rfl, begins, named, opens, members_broken_iff.mpr ⟨_, _, rounds, naming, ?_⟩⟩⟩
    exact (fieldNamed_broken_iff hstop).mpr ⟨number, leads, hnumber⟩

theorem kind_of_leadsTo {number : Token} (h : LeadsTo stop ts number) :
    number.kind = .numberLiteral := by
  obtain ⟨-, -, -, -, -, -, leads⟩ := h
  cases leads
  assumption

/-- What the reader is led to is one of the tokens. -/
theorem mem_of_leadsTo {number : Token} (h : LeadsTo stop ts number) : number ∈ ts := by
  obtain ⟨turns, -, -, -, rounds, -, leads⟩ := h
  refine (suffix_of_turns turns).subset (List.mem_cons_of_mem _ (List.mem_cons_of_mem _
    (List.mem_cons_of_mem _ ((suffix_of_rounds rounds).subset (List.mem_cons_of_mem _ ?_)))))
  cases leads
  simp

end Reading

/-! ### The numerals of a source -/

namespace Lexeme

/-- A lexeme that begins with a digit is a written numeral. -/
theorem isWritten_of_number {c : Char} {cs : List Char} {kind : TokenKind} {value : String}
    (hc : isDigit c = true) (h : (number c cs).kind = .token kind value) :
    Numeral.IsWritten value.toList := by
  have hwhole : Numeral.IsRun (c :: cs.takeWhile isDigit) :=
    ⟨List.cons_ne_nil _ _, List.forall_mem_cons.mpr ⟨hc, List.all_eq_true.mp List.all_takeWhile⟩⟩
  revert h
  fun_cases number c cs with
  | case1 => rintro ⟨⟩
  | case2 _ rest _ _ _ hplaces =>
      rintro ⟨⟩
      rw [String.toList_ofList]
      exact .inr ⟨_, _, hwhole, ⟨fun hnil => hplaces (List.isEmpty_iff.mpr hnil),
        List.all_eq_true.mp List.all_takeWhile⟩, rfl⟩
  | case3 =>
      rintro ⟨⟩
      rw [String.toList_ofList]
      exact .inl hwhole

/-- What the scanner takes for a number is a numeral. -/
theorem isWritten_of_first {armed : Bool} {c : Char} {cs : List Char} {value : String}
    (h : (first armed c cs).kind = .token .numberLiteral value) :
    Numeral.IsWritten value.toList := by
  revert h
  fun_cases first armed c cs with
  | case1 => rintro ⟨⟩
  | case2 => fun_cases slash cs <;> rintro ⟨⟩
  | case3 => fun_cases brace armed cs <;> rintro ⟨⟩
  | case4 => fun_cases atSign cs <;> rintro ⟨⟩
  | case5 => fun_cases string c cs <;> rintro ⟨⟩
  | case6 =>
      intro h
      rw [word, LexemeKind.token.injEq] at h
      exact absurd h.1 (ofWord_ne _).2.2.2
  | case7 _ _ _ _ _ _ hdigit => exact isWritten_of_number hdigit
  | case8 _ _ _ _ _ _ _ kind hsign =>
      rintro ⟨⟩
      exact absurd rfl (ofSign?_ne hsign).2.2.2
  | case9 => rintro ⟨⟩

end Lexeme

/-- A numeral of decimal digits only, and of no more than are read where it has no point. -/
def Token.IsPlain (t : Token) : Prop :=
  (∀ c ∈ t.text.toList, c = '.' ∨ isDecimal c = true) ∧
    ('.' ∉ t.text.toList → t.text.toList.length ≤ integerDigitLimit)

/-! ### A source -/

/-- What is made of a source that is read. -/
def Compilation.ofParsed (source : String) (strict : Bool) (p : Parsed) : Compilation :=
  { schema := p.schema
    lexFaults := (Token.scan source).faults
    syntaxFaults := p.faults
    semanticFaults :=
      match p.schema with
      | none => []
      | some s => if p.faults.isEmpty then s.violations strict else []
    tokenCount := (Token.scan source).tokens.length }

/-- **Compiling** fails at a numeral that does not convert, and answers with what was parsed
otherwise. -/
theorem compile_eq (source : String) (strict : Bool) :
    (compile source strict).outcome =
      match Schema.ofTokens (Token.scan source).tokens with
      | .error e => .error (.numeral e)
      | .ok p => .ok (.ofParsed source strict p) := by
  unfold compile Compilation.ofParsed
  rw [Journal.outcome_bind]
  show Except.bind (.ok (Token.scan source)) _ = _
  dsimp only [Except.bind]
  rw [Journal.outcome_bind]
  cases Schema.ofTokens (Token.scan source).tokens with
  | error e => rfl
  | ok p =>
      obtain ⟨schema, faults⟩ := p
      cases schema with
      | none => rfl
      | some s =>
          cases faults <;> rfl

/-- There are no findings exactly if there is no fault and no violation. -/
theorem Compilation.findings_ofParsed {source : String} {strict : Bool} {s : Schema}
    {faults : List SyntaxFault} :
    (ofParsed source strict ⟨some s, faults⟩).findings = [] ↔
      faults = [] ∧ s.violations strict = [] := by
  unfold findings ofParsed
  rw [List.append_eq_nil_iff, List.map_eq_nil_iff, List.map_eq_nil_iff]
  refine and_congr_right fun hfaults => ?_
  dsimp only at hfaults
  rw [hfaults]
  rfl

theorem Token.breaks_iff_of_isWritten {t : Token} (hkind : t.kind = .numberLiteral)
    (h : Numeral.IsWritten t.text.toList) : (∃ e, t.Breaks e) ↔ ¬ t.IsPlain := by
  unfold Breaks IsPlain
  rw [← Literal.exists_ofNumeral_iff h]
  cases Literal.ofNumeral t.text <;> simp [hkind]

/-- **A source is compiled, or a numeral is no number.**  Compiling a source gives an answer exactly
if every number that the reader is led to has decimal digits only, and no more than are read where
it has no point; nothing else ends it without one.  An answer holds the pieces that were dropped, and
it has no finding exactly if the tokens write models that break none of the rules for names; then,
and only then, the source is accepted. -/
theorem compile_answers (source : String) (strict : Bool) :
    ∃ body stop, (Token.scan source).tokens = body ++ [stop] ∧
      ((∃ c, (compile source strict).outcome = .ok c) ↔
        ∀ number, Reading.LeadsTo stop body number → number.IsPlain) ∧
      (∀ e, (compile source strict).outcome = .error e →
        ∃ number fault, Reading.LeadsTo stop body number ∧ number.Breaks fault ∧
          e = .numeral fault) ∧
      ∀ c, (compile source strict).outcome = .ok c →
        c.lexFaults = (Token.scan source).faults ∧ c.isOk = c.findings.isEmpty ∧
        (c.findings = [] ↔ ∃ models, Grammar.WritesRow Grammar.WritesModel body models ∧
          (Schema.mk models).violations strict = []) := by
  obtain ⟨body, stop, htokens, hstop, hbody⟩ := Token.exists_body source
  have hread := Schema.ofTokens_append (fun t ht => (hbody t ht).1) hstop
  have hwritten : ∀ number, Reading.LeadsTo stop body number →
      ((∃ e, number.Breaks e) ↔ ¬ number.IsPlain) := by
    intro number h
    have hkind := Reading.kind_of_leadsTo h
    obtain ⟨armed, c, cs, hfirst⟩ := (hbody number (Reading.mem_of_leadsTo h)).2
    exact Token.breaks_iff_of_isWritten hkind (Lexeme.isWritten_of_first (hkind ▸ hfirst))
  refine ⟨body, stop, htokens, ?_⟩
  rw [compile_eq, htokens, hread]
  cases hmodels : Reading.models stop body with
  | error e =>
      obtain ⟨number, hleads, hbreaks⟩ := (Reading.models_error_iff_leadsTo hstop).mp hmodels
      refine ⟨iff_of_false nofun fun h => ?_, fun e' he => ?_, nofun⟩
      · exact (hwritten number hleads).mp ⟨e, hbreaks⟩ (h number hleads)
      · cases he
        exact ⟨number, e, hleads, hbreaks, rfl⟩
  | ok r =>
      obtain ⟨models, faults⟩ := r
      refine ⟨iff_of_true ⟨_, rfl⟩ fun number hleads => ?_, nofun, fun c hc => ?_⟩
      · by_contra hplain
        obtain ⟨e, hbreaks⟩ := (hwritten number hleads).mpr hplain
        have herror := (Reading.models_error_iff_leadsTo hstop).mpr ⟨number, hleads, hbreaks⟩
        rw [hmodels] at herror
        cases herror
      · cases hc
        refine ⟨rfl, ?_, ?_⟩
        · have hcount : 0 < (Token.scan source).tokens.length := by
            rw [htokens, List.length_append]
            exact Nat.succ_pos _
          simp [Compilation.isOk, Compilation.ofParsed, hcount]
        · rw [Compilation.findings_ofParsed]
          constructor
          · rintro ⟨rfl, hviolations⟩
            exact ⟨models, (Reading.models_ok_iff hstop).mp hmodels, hviolations⟩
          · rintro ⟨models', hrow, hviolations⟩
            rw [(Reading.models_ok_iff hstop).mpr hrow] at hmodels
            cases hmodels
            exact ⟨rfl, hviolations⟩

/-- A default that is no number: the sign for a square is a digit, but not a decimal one. -/
def squareSource : String := "model t \x7b v int @default(\u00b2) \x7d"

/-- **Compiling can fail** where the default is a superscript digit. -/
theorem compile_squareSource :
    ∃ strict, ¬ ∃ c, (compile squareSource strict).outcome = .ok c := by
  have herror : (compile squareSource true).outcome = .error (.numeral (.notInteger "\u00b2")) := by
    rw [compile_eq]
    with_unfolding_all rfl
  refine ⟨true, ?_⟩
  rintro ⟨c, hc⟩
  rw [herror] at hc
  cases hc

end Schemata
