import Schemata.Proofs.Schema.Grammar
import Schemata.Proofs.Schema.Reading

/-!
# Proofs — schemas — what is recognized

The reader of tokens accepts what the grammar has, and nothing else.  A rule that reads a value has
taken tokens that write it (`…_of_read`).  The other way round, tokens that write a value are read
as that value, whatever comes after them; but where a rule goes on as long as it can, what comes
after must not be what it could go on with (`Reading.Ends`), and inside a model it never is.

* `Reading.models_ok_iff` — a row of tokens is read without a fault exactly if it is one of models.
* `Schema.ofTokens_recognizes` — so the schema that is read is the one that is written.
-/

namespace Schemata

namespace Rule

variable {α β : Type} {stop : Token} {ts rest : List Token}

theorem bind_read_iff {r : Rule α} {f : α → Rule β} {b : β} :
    (r >>= f) stop ts = .read b rest ↔
      ∃ a mid, r stop ts = .read a mid ∧ f a stop mid = .read b rest := by
  show Rule.bind r f stop ts = _ ↔ _
  unfold Rule.bind
  cases r stop ts <;> simp

theorem pure_read_iff {a b : α} :
    (pure a : Rule α) stop ts = .read b rest ↔ a = b ∧ ts = rest := by
  show Reading.read a ts = _ ↔ _
  rw [Reading.read.injEq]

theorem ofNumeral_read_iff {r : Except NumeralFault α} {a : α} :
    ofNumeral r stop ts = .read a rest ↔ r = .ok a ∧ ts = rest := by
  unfold ofNumeral
  cases r <;> simp

theorem fail_ne_read {problem : SyntaxProblem} {t : Token} {a : α} :
    (fail problem t : Rule α) stop ts ≠ .read a rest := nofun

theorem peek_bind_cons (t : Token) (f : Token → Rule β) :
    (peek >>= f) stop (t :: ts) = f t stop (t :: ts) := rfl

theorem peek_bind_nil (f : Token → Rule β) : (peek >>= f) stop [] = f stop stop [] := rfl

theorem skip_bind_cons (t : Token) (f : Unit → Rule β) :
    (skip >>= f) stop (t :: ts) = f () stop ts := rfl

/-- A token is taken if it passes the test, and is a fault otherwise. -/
theorem expectWhere_cons {test : TokenKind → Bool} {problem : SyntaxProblem} (t : Token) :
    expectWhere test problem stop (t :: ts) =
      if test t.kind then .read t ts else .fault ⟨problem, t.position⟩ (t :: ts) := by
  unfold expectWhere
  rw [peek_bind_cons]
  split <;> rfl

theorem expectWhere_bind_cons {test : TokenKind → Bool} {problem : SyntaxProblem} {t : Token}
    (h : test t.kind = true) (f : Token → Rule β) :
    (expectWhere test problem >>= f) stop (t :: ts) = f t stop ts := by
  show Rule.bind (expectWhere test problem) f stop (t :: ts) = _
  unfold Rule.bind
  rw [expectWhere_cons, if_pos h]

theorem expect_bind_cons {kind : TokenKind} {problem : SyntaxProblem} {t : Token}
    (h : t.kind = kind) (f : Token → Rule β) :
    (expect kind problem >>= f) stop (t :: ts) = f t stop ts := by
  unfold expect
  exact expectWhere_bind_cons (by simpa using h) f

theorem expectName_bind_cons {problem : SyntaxProblem} {t : Token} (h : t.kind.isName = true)
    (f : Token → Rule β) : (expectName problem >>= f) stop (t :: ts) = f t stop ts :=
  expectWhere_bind_cons h f

/-- What is expected is there, and it is not the end. -/
theorem expectWhere_bind_read_iff {test : TokenKind → Bool} {problem : SyntaxProblem}
    {f : Token → Rule β} {b : β} (hstop : test stop.kind = false) :
    (expectWhere test problem >>= f) stop ts = .read b rest ↔
      ∃ t us, ts = t :: us ∧ test t.kind = true ∧ f t stop us = .read b rest := by
  rw [bind_read_iff]
  cases ts with
  | nil =>
      unfold expectWhere
      rw [peek_bind_nil, hstop]
      simp [fail_ne_read]
  | cons u us =>
      rw [expectWhere_cons]
      cases h : test u.kind <;> simp [h]

/-- A rule that expects a token is read from that token and what follows it, unless it may be the
end. -/
theorem expect_bind_read_iff_of_ne {kind : TokenKind} {problem : SyntaxProblem}
    {f : Token → Rule β} {b : β} (hstop : stop.kind ≠ kind) :
    (expect kind problem >>= f) stop ts = .read b rest ↔
      ∃ t us, ts = t :: us ∧ t.kind = kind ∧ f t stop us = .read b rest := by
  unfold expect
  rw [expectWhere_bind_read_iff (by simpa using hstop)]
  simp only [beq_iff_eq]

theorem expect_bind_read_iff {kind : TokenKind} {problem : SyntaxProblem} {f : Token → Rule β}
    {b : β} (hstop : stop.kind = .endOfInput) (hkind : kind ≠ .endOfInput) :
    (expect kind problem >>= f) stop ts = .read b rest ↔
      ∃ t us, ts = t :: us ∧ t.kind = kind ∧ f t stop us = .read b rest :=
  expect_bind_read_iff_of_ne (hstop ▸ hkind.symm)

theorem expectName_bind_read_iff {problem : SyntaxProblem} {f : Token → Rule β} {b : β}
    (hstop : stop.kind = .endOfInput) :
    (expectName problem >>= f) stop ts = .read b rest ↔
      ∃ t us, ts = t :: us ∧ t.kind.isName = true ∧ f t stop us = .read b rest :=
  expectWhere_bind_read_iff (by rw [hstop]; rfl)

end Rule

/-- A generator is known by its name. -/
theorem Generator.ofName?_eq_some_iff {name : String} {g : Generator} :
    Generator.ofName? name = some g ↔ name = g.name := by
  constructor
  · intro h
    unfold Generator.ofName? at h
    exact (eq_of_beq (List.find?_some h :)).symm
  · rintro rfl
    cases g <;> rfl

theorem RelationKind.ofName?_eq_some_iff {name : String} {k : RelationKind} :
    RelationKind.ofName? name = some k ↔ name = k.name := by
  constructor
  · intro h
    unfold RelationKind.ofName? at h
    exact (eq_of_beq (List.find?_some h :)).symm
  · rintro rfl
    cases k <;> rfl

namespace Reading

open Rule Grammar

variable {stop : Token} {ts rest : List Token}

/-! ### Decorators -/

/-- The tokens that a default is read from write it. -/
theorem writesValue_of_read (hstop : stop.kind = .endOfInput) {d : Default}
    (h : defaultValue stop ts = .read d rest) : ∃ us, ts = us ++ rest ∧ WritesValue us d := by
  unfold defaultValue at h
  cases ts with
  | nil =>
      rw [peek_bind_nil, hstop] at h
      cases h
  | cons t ts =>
      rw [peek_bind_cons] at h
      split at h
      next kind =>
          rw [skip_bind_cons, bind_read_iff] at h
          obtain ⟨v, mid, hv, h⟩ := h
          obtain ⟨numeral, rfl⟩ := ofNumeral_read_iff.mp hv
          obtain ⟨rfl, rfl⟩ := pure_read_iff.mp h
          exact ⟨[t], rfl, .number kind numeral⟩
      split at h
      next kind =>
          rw [skip_bind_cons] at h
          obtain ⟨rfl, rfl⟩ := pure_read_iff.mp h
          exact ⟨[t], rfl, .string kind⟩
      split at h
      next hword =>
          obtain ⟨kind, htext⟩ := hword
          rw [skip_bind_cons] at h
          obtain ⟨rfl, rfl⟩ := pure_read_iff.mp h
          rcases htext with text | text
          · rw [text]
            exact ⟨[t], rfl, .true kind text⟩
          · rw [text]
            exact ⟨[t], rfl, .false kind text⟩
      by_cases kind : t.kind = .identifier
      · rw [kind] at h
        cases hname : Generator.ofName? t.text with
        | none =>
          rw [hname] at h
          cases h
        | some g =>
          rw [hname] at h
          dsimp only at h
          rw [skip_bind_cons, expect_bind_read_iff hstop (by decide)] at h
          obtain ⟨opening, us, rfl, opens, h⟩ := h
          rw [expect_bind_read_iff hstop (by decide)] at h
          obtain ⟨closing, vs, rfl, closes, h⟩ := h
          obtain ⟨rfl, rfl⟩ := pure_read_iff.mp h
          exact ⟨[t, opening, closing], rfl,
            .call kind (Generator.ofName?_eq_some_iff.mp hname) opens closes⟩
      · cases hkind : t.kind <;> rw [hkind] at h <;> first | exact absurd hkind kind | cases h

/-- A default is read from the tokens that write it. -/
theorem read_of_writesValue {us : List Token} {d : Default}
    (h : WritesValue us d) : defaultValue stop (us ++ rest) = .read d rest := by
  unfold defaultValue
  cases h with
  | @number t v kind numeral =>
      rw [List.singleton_append, peek_bind_cons, if_pos kind, skip_bind_cons, bind_read_iff]
      exact ⟨v, rest, ofNumeral_read_iff.mpr ⟨numeral, rfl⟩, rfl⟩
  | @string t kind =>
      rw [List.singleton_append, peek_bind_cons, if_neg (by simp [kind]), if_pos kind]
      rfl
  | @true t kind text =>
      rw [List.singleton_append, peek_bind_cons, if_neg (by simp [kind]), if_neg (by simp [kind]),
        if_pos ⟨kind, .inl text⟩, text]
      rfl
  | @false t kind text =>
      rw [List.singleton_append, peek_bind_cons, if_neg (by simp [kind]), if_neg (by simp [kind]),
        if_pos ⟨kind, .inr text⟩, text]
      rfl
  | @call t opening closing g kind text opens closes =>
      have hword : ¬ (t.kind = .identifier ∧ (t.text = "true" ∨ t.text = "false")) := by
        rw [text]
        cases g <;> simp [Generator.name]
      rw [List.cons_append, peek_bind_cons, if_neg (by simp [kind]), if_neg (by simp [kind]),
        if_neg hword, kind, Generator.ofName?_eq_some_iff.mpr text]
      dsimp only
      rw [skip_bind_cons, List.cons_append, expect_bind_cons opens, List.singleton_append,
        expect_bind_cons closes]
      rfl

/-- The argument of a default is read from parentheses with a value that they enclose. -/
theorem writesArgument_of_read (hstop : stop.kind = .endOfInput) {d : Default}
    (h : defaultArgument stop ts = .read d rest) :
    ∃ opening us closing, ts = opening :: (us ++ closing :: rest) ∧ opening.kind = .openParen ∧
      WritesValue us d ∧ closing.kind = .closeParen := by
  unfold defaultArgument at h
  rw [expect_bind_read_iff hstop (by decide)] at h
  obtain ⟨opening, ts, rfl, opens, h⟩ := h
  rw [bind_read_iff] at h
  obtain ⟨v, mid, hv, h⟩ := h
  obtain ⟨us, rfl, value⟩ := writesValue_of_read hstop hv
  rw [expect_bind_read_iff hstop (by decide)] at h
  obtain ⟨closing, ts, rfl, closes, h⟩ := h
  obtain ⟨rfl, rfl⟩ := pure_read_iff.mp h
  exact ⟨opening, us, closing, rfl, opens, value, closes⟩

/-- A relation's key is read from a name in parentheses, or from nothing. -/
theorem relationKey_cases (hstop : stop.kind = .endOfInput) {key : Option String}
    (h : relationKey stop ts = .read key rest) :
    (key = none ∧ ts = rest) ∨ ∃ opening name closing, ts = opening :: name :: closing :: rest ∧
      key = some name.text ∧ opening.kind = .openParen ∧ name.kind.isName ∧
      closing.kind = .closeParen := by
  unfold relationKey at h
  cases ts with
  | nil =>
      rw [peek_bind_nil, if_neg (by simp [hstop])] at h
      obtain ⟨rfl, rfl⟩ := pure_read_iff.mp h
      exact .inl ⟨rfl, rfl⟩
  | cons opening ts =>
      rw [peek_bind_cons] at h
      split at h
      next opens =>
          rw [skip_bind_cons, expectName_bind_read_iff hstop] at h
          obtain ⟨name, ts, rfl, named, h⟩ := h
          rw [expect_bind_read_iff hstop (by decide)] at h
          obtain ⟨closing, ts, rfl, closes, h⟩ := h
          obtain ⟨rfl, rfl⟩ := pure_read_iff.mp h
          exact .inr ⟨opening, name, closing, rfl, rfl, opens, named, closes⟩
      next =>
          obtain ⟨rfl, rfl⟩ := pure_read_iff.mp h
          exact .inl ⟨rfl, rfl⟩

/-- Where no parenthesis opens, a relation has no key. -/
theorem relationKey_none (hstop : stop.kind = .endOfInput)
    (hnext : ∀ u ∈ rest.head?, u.kind ≠ .openParen) :
    relationKey stop rest = .read none rest := by
  unfold relationKey
  cases rest with
  | nil =>
      rw [peek_bind_nil, if_neg (by simp [hstop])]
      rfl
  | cons u us =>
      rw [peek_bind_cons, if_neg (hnext u rfl)]
      rfl

/-- The tokens that a decorator is read from say it. -/
theorem writesSaying_of_read (hstop : stop.kind = .endOfInput) {t : Token} {d : Decorator}
    (kind : t.kind = .identifier) (h : decoratorNamed t stop ts = .read d rest) :
    ∃ us, ts = us ++ rest ∧ WritesSaying (t :: us) d := by
  unfold decoratorNamed at h
  cases hname : RelationKind.ofName? t.text with
  | some k =>
      rw [hname] at h
      dsimp only at h
      rw [bind_read_iff] at h
      obtain ⟨key, mid, hkey, h⟩ := h
      obtain ⟨rfl, rfl⟩ := pure_read_iff.mp h
      have text := RelationKind.ofName?_eq_some_iff.mp hname
      obtain ⟨rfl, rfl⟩ | ⟨opening, name, closing, rfl, rfl, opens, named, closes⟩ :=
        relationKey_cases hstop hkey
      · exact ⟨[], rfl, .relation kind text⟩
      · exact ⟨[opening, name, closing], rfl, .keyedRelation kind text opens named closes⟩
  | none =>
      rw [hname] at h
      dsimp only at h
      split at h
      next text =>
          obtain ⟨rfl, rfl⟩ := pure_read_iff.mp h
          exact ⟨[], rfl, .primaryKey kind text⟩
      split at h
      next text =>
          obtain ⟨rfl, rfl⟩ := pure_read_iff.mp h
          exact ⟨[], rfl, .unique kind text⟩
      split at h
      next text =>
          obtain ⟨rfl, rfl⟩ := pure_read_iff.mp h
          exact ⟨[], rfl, .required kind text⟩
      split at h
      next text =>
          rw [bind_read_iff] at h
          obtain ⟨v, mid, hv, h⟩ := h
          obtain ⟨rfl, rfl⟩ := pure_read_iff.mp h
          obtain ⟨opening, us, closing, rfl, opens, value, closes⟩ :=
            writesArgument_of_read hstop hv
          exact ⟨opening :: (us ++ [closing]), by simp, .default kind text opens value closes⟩
      next => exact absurd h fail_ne_read

/-- The name of a decorator says what it is. -/
theorem decoratorKey_of_writesSaying {t : Token} {us : List Token} {d : Decorator}
    (h : WritesSaying (t :: us) d) : decoratorKey t.text = d.key := by
  have hrelation : ∀ k : RelationKind, decoratorKey k.name = "relation" := fun k => by
    unfold decoratorKey
    rw [RelationKind.ofName?_eq_some_iff.mpr rfl]
    rfl
  cases h with
  | primaryKey kind text => rw [text]; decide
  | unique kind text => rw [text]; decide
  | required kind text => rw [text]; decide
  | default kind text => rw [text]; rfl
  | relation kind text => rw [text]; exact hrelation _
  | keyedRelation kind text => rw [text]; exact hrelation _

/-- A decorator is read from the tokens that say it, if no parenthesis opens behind it. -/
theorem read_of_writesSaying (hstop : stop.kind = .endOfInput) {t : Token} {us : List Token}
    {d : Decorator} (h : WritesSaying (t :: us) d) (hnext : ∀ u ∈ rest.head?, u.kind ≠ .openParen) :
    decoratorNamed t stop (us ++ rest) = .read d rest := by
  have hplain : ∀ {name}, t.text = name → (RelationKind.ofName? name).isNone →
      RelationKind.ofName? t.text = none := fun h h' => h ▸ Option.isNone_iff_eq_none.mp h'
  unfold decoratorNamed
  cases h with
  | primaryKey kind text =>
      rw [hplain text (by decide)]
      dsimp only
      rw [if_pos text]
      rfl
  | unique kind text =>
      rw [hplain text (by decide)]
      dsimp only
      rw [if_neg (by rw [text]; decide), if_pos text]
      rfl
  | required kind text =>
      rw [hplain text (by decide)]
      dsimp only
      rw [if_neg (by rw [text]; decide), if_neg (by rw [text]; decide), if_pos text]
      rfl
  | @default _ opening closing ts d kind text opens value closes =>
      have hargument : defaultArgument stop (opening :: (ts ++ [closing]) ++ rest) =
          .read d rest := by
        unfold defaultArgument
        rw [List.cons_append, List.append_assoc, expect_bind_cons opens, bind_read_iff]
        refine ⟨d, closing :: rest, read_of_writesValue value, ?_⟩
        rw [expect_bind_cons closes]
        rfl
      rw [hplain text (by decide)]
      dsimp only
      rw [if_neg (by rw [text]; decide), if_neg (by rw [text]; decide),
        if_neg (by rw [text]; decide), if_pos text, bind_read_iff]
      exact ⟨d, rest, hargument, rfl⟩
  | relation kind text =>
      rw [RelationKind.ofName?_eq_some_iff.mpr text]
      dsimp only
      rw [bind_read_iff]
      exact ⟨none, rest, relationKey_none hstop hnext, rfl⟩
  | @keyedRelation _ opening key closing k kind text opens named closes =>
      rw [RelationKind.ofName?_eq_some_iff.mpr text]
      dsimp only
      rw [bind_read_iff]
      refine ⟨some key.text, rest, ?_, rfl⟩
      unfold relationKey
      rw [List.cons_append, peek_bind_cons, if_pos opens, skip_bind_cons, List.cons_append,
        expectName_bind_cons named, List.cons_append, expect_bind_cons closes]
      rfl

/-- A decorator is read with its key, which was not seen before. -/
theorem writesSaying_of_decorator (hstop : stop.kind = .endOfInput) {seen : List String}
    {key : String} {d : Decorator} (h : decorator seen stop ts = .read (key, d) rest) :
    ∃ us, ts = us ++ rest ∧ WritesSaying us d ∧ key = d.key ∧ d.key ∉ seen := by
  unfold decorator at h
  rw [expect_bind_read_iff hstop (by decide)] at h
  obtain ⟨t, ts, rfl, kind, h⟩ := h
  split at h
  next => exact absurd h fail_ne_read
  next hseen =>
      rw [bind_read_iff] at h
      obtain ⟨d', mid, hd, h⟩ := h
      obtain ⟨heq, rfl⟩ := pure_read_iff.mp h
      cases heq
      obtain ⟨us, rfl, saying⟩ := writesSaying_of_read hstop kind hd
      have hkey := decoratorKey_of_writesSaying saying
      exact ⟨t :: us, rfl, saying, hkey, hkey ▸ by simpa using hseen⟩

/-- A decorator whose key was not seen before is read from the tokens that say it. -/
theorem decorator_of_writesSaying (hstop : stop.kind = .endOfInput) {seen : List String}
    {us : List Token} {d : Decorator} (h : WritesSaying us d) (hseen : d.key ∉ seen)
    (hnext : ∀ u ∈ rest.head?, u.kind ≠ .openParen) :
    decorator seen stop (us ++ rest) = .read (d.key, d) rest := by
  obtain ⟨t, us, rfl, kind⟩ : ∃ t vs, us = t :: vs ∧ t.kind = .identifier := by
    cases h <;> exact ⟨_, _, rfl, ‹_›⟩
  have hkey := decoratorKey_of_writesSaying h
  unfold decorator
  rw [List.cons_append, expect_bind_cons kind, if_neg (by simpa [hkey] using hseen), bind_read_iff]
  refine ⟨d, rest, read_of_writesSaying hstop h hnext, ?_⟩
  rw [hkey]
  rfl

/-- The decorators that are read are written in a row, with different keys, none seen before. -/
theorem writesDecorators_of_read (hstop : stop.kind = .endOfInput) {seen : List String}
    {ds : List Decorator} (h : decorators seen stop ts = .read ds rest) :
    ∃ us, ts = us ++ rest ∧ WritesRow WritesDecorator us ds ∧ (ds.map Decorator.key).Nodup ∧
      ∀ d ∈ ds, d.key ∉ seen := by
  fun_induction decorators seen stop ts generalizing ds rest with
  | case1 =>
      cases h
      exact ⟨[], rfl, .nil, List.nodup_nil, fun d hd => absurd hd List.not_mem_nil⟩
  | case2 seen t ts kind key d mid hd hlt es rest' hes ih =>
      cases h
      obtain ⟨us, rfl, saying, rfl, hseen⟩ := writesSaying_of_decorator hstop hd
      obtain ⟨vs, rfl, row, hnodup, hnew⟩ := ih hes
      have hkey : d.key ∉ es.map Decorator.key := fun hmem => by
        obtain ⟨e, he, heq⟩ := List.mem_map.mp hmem
        exact hnew e he (heq ▸ List.mem_cons_self)
      refine ⟨t :: us ++ vs, by simp, .cons (.mk kind saying) row, ?_, ?_⟩
      · exact List.nodup_cons.mpr ⟨hkey, hnodup⟩
      · exact List.forall_mem_cons.mpr
          ⟨hseen, fun e he hmem => hnew e he (List.mem_cons_of_mem _ hmem)⟩
  | case3 => cases h
  | case4 => cases h
  | case5 => cases h
  | case6 => cases h
  | case7 seen t ts kind =>
      cases h
      exact ⟨[], rfl, .nil, List.nodup_nil, fun d hd => absurd hd List.not_mem_nil⟩

/-- None of the signs that a field may go on with comes next. -/
def Ends (ts : List Token) : Prop :=
  ∀ t ∈ ts.head?, t.kind ≠ .openBracket ∧ t.kind ≠ .openParen ∧ t.kind ≠ .atSign

/-- Behind a field's type neither a bracket nor a parenthesis opens, be there decorators or not. -/
theorem head_decorators {us : List Token} {ds : List Decorator}
    (h : WritesRow WritesDecorator us ds) (hends : Ends rest) :
    ∀ t ∈ (us ++ rest).head?, t.kind ≠ .openBracket ∧ t.kind ≠ .openParen := by
  cases h with
  | nil => exact fun t ht => ⟨(hends t ht).1, (hends t ht).2.1⟩
  | cons head tail =>
      obtain ⟨signed, -⟩ := head
      rintro t ⟨⟩
      simp [signed]

/-- A row of decorators with different keys, none seen before, is read. -/
theorem decorators_of_writesRow (hstop : stop.kind = .endOfInput) {seen : List String}
    {us : List Token} {ds : List Decorator} (h : WritesRow WritesDecorator us ds)
    (hnodup : (ds.map Decorator.key).Nodup) (hnew : ∀ d ∈ ds, d.key ∉ seen) (hends : Ends rest) :
    decorators seen stop (us ++ rest) = .read ds rest := by
  induction h generalizing seen with
  | nil =>
      cases rest with
      | nil => rw [List.append_nil, decorators]
      | cons t ts => rw [List.nil_append, decorators, if_neg (hends t rfl).2.2]
  | @cons ts us d ds head tail ih =>
      obtain ⟨signed, saying⟩ := head
      rw [List.map_cons, List.nodup_cons] at hnodup
      obtain ⟨hseen, hnew⟩ := List.forall_mem_cons.mp hnew
      have hnew' : ∀ e ∈ ds, e.key ∉ d.key :: seen := fun e he hmem => by
        rcases List.mem_cons.mp hmem with heq | hmem
        · exact hnodup.1 (heq ▸ List.mem_map_of_mem he)
        · exact hnew e he hmem
      have hd := decorator_of_writesSaying hstop saying hseen
        fun t ht => (head_decorators tail hends t ht).2
      rw [List.append_assoc, List.cons_append, decorators, if_pos signed]
      split
      next heq =>
          rw [hd] at heq
          cases heq
          rw [ih hnodup.2 hnew']
      next heq => rw [hd] at heq; cases heq
      next heq => rw [hd] at heq; cases heq

/-! ### Fields -/

/-- An array mark is read from two brackets, and none from nothing. -/
theorem writesMark_of_read {isArray : Bool} (h : arrayMark stop ts = .read isArray rest) :
    ∃ us, ts = us ++ rest ∧ WritesMark us isArray := by
  unfold arrayMark at h
  split at h
  next opening closing vs =>
      split at h
      next hkinds =>
          cases h
          exact ⟨[opening, closing], rfl, .present hkinds.1 hkinds.2⟩
      next =>
          cases h
          exact ⟨[], rfl, .absent⟩
  next =>
      cases h
      exact ⟨[], rfl, .absent⟩

/-- An array mark is read from the tokens that write it, if no bracket opens behind it. -/
theorem arrayMark_of_writesMark {us : List Token} {isArray : Bool} (h : WritesMark us isArray)
    (hnext : ∀ t ∈ rest.head?, t.kind ≠ .openBracket) :
    arrayMark stop (us ++ rest) = .read isArray rest := by
  unfold arrayMark
  cases h with
  | absent =>
      rw [List.nil_append]
      split
      next t u vs => rw [if_neg fun hkinds => hnext t rfl hkinds.1]
      next => rfl
  | present opens closes =>
      rw [List.cons_append, List.cons_append]
      dsimp only
      rw [if_pos ⟨opens, closes⟩]
      rfl

/-- A shape is read from a raw block whose text is one. -/
theorem shape_read_iff (hstop : stop.kind = .endOfInput) {isArray : Bool} {s : Shape} :
    shape isArray stop ts = .read s rest ↔
      ∃ block, ts = block :: rest ∧ block.kind = .rawObject ∧
        Shape.ofText block.text block.position isArray = .ok s := by
  unfold shape
  cases ts with
  | nil =>
      rw [peek_bind_nil, if_neg (by simp [hstop])]
      simp [fail_ne_read]
  | cons t ts =>
      rw [peek_bind_cons]
      split
      next raw =>
          rw [skip_bind_cons]
          cases hshape : Shape.ofText t.text t.position isArray with
          | ok s' =>
              dsimp only
              rw [pure_read_iff]
              constructor
              · rintro ⟨rfl, rfl⟩
                exact ⟨t, rfl, raw, hshape⟩
              · rintro ⟨_, ⟨⟩, -, h⟩
                rw [hshape] at h
                cases h
                exact ⟨rfl, rfl⟩
          | error e =>
              constructor
              · exact fun h => by cases h
              · rintro ⟨_, ⟨⟩, -, h⟩
                rw [hshape] at h
                cases h
      next raw =>
          constructor
          · exact fun h => absurd h fail_ne_read
          · rintro ⟨_, ⟨⟩, h, -⟩
            exact absurd h raw

/-- A type is read exactly from the tokens that write it. -/
theorem plainType_read_iff (hstop : stop.kind = .endOfInput) {type : FieldType} :
    plainType stop ts = .read type rest ↔ ∃ us, ts = us ++ rest ∧ WritesType us type := by
  unfold plainType
  constructor
  · intro h
    cases ts with
    | nil =>
        rw [peek_bind_nil, hstop] at h
        cases h
    | cons t ts =>
        rw [peek_bind_cons] at h
        split at h
        next kind =>
            rw [skip_bind_cons] at h
            obtain ⟨rfl, rfl⟩ := pure_read_iff.mp h
            rcases kind with kind | kind
            · exact ⟨[t], rfl, .scalar kind⟩
            · exact ⟨[t], rfl, .model kind⟩
        split at h
        next kind =>
            rw [skip_bind_cons, bind_read_iff] at h
            obtain ⟨isArray, mid, hmark, h⟩ := h
            obtain ⟨us, rfl, marked⟩ := writesMark_of_read hmark
            rw [bind_read_iff] at h
            obtain ⟨s, mid', hshape, h⟩ := h
            obtain ⟨block, rfl, raw, hs⟩ := (shape_read_iff hstop).mp hshape
            obtain ⟨rfl, rfl⟩ := pure_read_iff.mp h
            exact ⟨t :: (us ++ [block]), by simp, .json kind marked raw hs⟩
        next => exact absurd h fail_ne_read
  · rintro ⟨us, rfl, h⟩
    cases h with
    | scalar kind =>
        rw [List.singleton_append, peek_bind_cons, if_pos (.inl kind)]
        rfl
    | model kind =>
        rw [List.singleton_append, peek_bind_cons, if_pos (.inr kind)]
        rfl
    | @json t block ts isArray s kind marked raw hshape =>
        rw [List.cons_append, peek_bind_cons, if_neg (by simp [kind, TokenKind.isPrimitive]),
          if_pos kind, skip_bind_cons, List.append_assoc, bind_read_iff]
        refine ⟨isArray, block :: rest, arrayMark_of_writesMark marked ?_, ?_⟩
        · rintro _ ⟨⟩
          simp [raw]
        · rw [bind_read_iff]
          exact ⟨s, rest, (shape_read_iff hstop).mpr ⟨block, rfl, raw, hshape⟩, rfl⟩

/-- The decorators of a field, said one after the other, make the field that is written. -/
theorem foldl_decorate_written {name : Token} {type : FieldType} {isArray : Bool}
    {ds : List Decorator} (h : (ds.map Decorator.key).Nodup) :
    ds.foldl Field.decorate
      { name := name.text
        typeName := type.typeName
        isArray := type.isArray || isArray
        shape := type.shape
        position := name.position } = Field.written name type isArray ds := by
  rw [Field.foldl_decorate h]
  simp [Field.written]

/-- The tokens that a field is read from write it, its name first. -/
theorem writesField_of_read (hstop : stop.kind = .endOfInput) {name : Token} {f : Field}
    (named : name.kind.isName) (h : fieldNamed name stop ts = .read f rest) :
    ∃ us, ts = us ++ rest ∧ WritesField (name :: us) f := by
  unfold fieldNamed at h
  rw [bind_read_iff] at h
  obtain ⟨type, mid, htype, h⟩ := h
  obtain ⟨us, rfl, typed⟩ := (plainType_read_iff hstop).mp htype
  rw [bind_read_iff] at h
  obtain ⟨isArray, mid', hmark, h⟩ := h
  obtain ⟨vs, rfl, marked⟩ := writesMark_of_read hmark
  obtain ⟨ds, mid'', hds, hfield⟩ := bind_read_iff.mp h
  obtain ⟨ws, rfl, decorated, distinct, -⟩ := writesDecorators_of_read hstop hds
  obtain ⟨rfl, rfl⟩ := pure_read_iff.mp hfield
  rw [foldl_decorate_written distinct]
  exact ⟨us ++ (vs ++ ws), by simp, .mk named typed marked decorated distinct⟩

/-- A field is read from the tokens that write it, if it ends behind them. -/
theorem fieldNamed_of_writesField (hstop : stop.kind = .endOfInput) {name : Token}
    {us : List Token} {f : Field} (h : WritesField (name :: us) f) (hends : Ends rest) :
    fieldNamed name stop (us ++ rest) = .read f rest := by
  cases h with
  | @mk _ ts us vs type isArray ds named typed marked decorated distinct =>
      unfold fieldNamed
      rw [List.append_assoc, List.append_assoc, bind_read_iff]
      refine ⟨type, us ++ (vs ++ rest), (plainType_read_iff hstop).mpr ⟨ts, rfl, typed⟩, ?_⟩
      rw [bind_read_iff]
      refine ⟨isArray, vs ++ rest, arrayMark_of_writesMark marked
        fun t ht => (head_decorators decorated hends t ht).1, ?_⟩
      have hds := decorators_of_writesRow hstop decorated distinct
        (fun _ _ => List.not_mem_nil) hends
      exact bind_read_iff.mpr
        ⟨ds, rest, hds, pure_read_iff.mpr ⟨foldl_decorate_written distinct, rfl⟩⟩

/-! ### Models -/

/-- The names of a `@@unique` block are read exactly from names with commas between them and a
bracket. -/
theorem uniqueMembers_read_iff {names : List String} :
    uniqueMembers stop ts = .read names rest ↔
      ∃ us closing, ts = us ++ closing :: rest ∧ WritesNames us names ∧
        closing.kind = .closeBracket := by
  constructor
  · intro h
    fun_induction uniqueMembers stop ts generalizing names rest with
    | case3 t named u us separated ns rest' hns ih =>
        cases h
        obtain ⟨vs, closing, rfl, listed, closes⟩ := ih hns
        exact ⟨t :: u :: vs, closing, rfl, .cons named separated listed, closes⟩
    | case6 t named u us hcomma closes =>
        cases h
        exact ⟨[t], u, rfl, .last named, closes⟩
    | case1 | case2 | case4 | case5 | case7 | case8 => cases h
  · rintro ⟨us, closing, rfl, listed, closes⟩
    induction listed with
    | last named =>
        rw [List.singleton_append, uniqueMembers, if_pos named, if_neg (by simp [closes]),
          if_pos closes]
    | cons named separated listed ih =>
        rw [List.cons_append, List.cons_append, uniqueMembers, if_pos named, if_pos separated, ih]

/-- The arguments of a `@@unique` block are read exactly from the tokens that write them. -/
theorem unique_read_iff (hstop : stop.kind = .endOfInput) {names : List String} :
    unique stop ts = .read names rest ↔ ∃ us, ts = us ++ rest ∧ WritesUnique us names := by
  unfold unique
  constructor
  · intro h
    rw [expect_bind_read_iff hstop (by decide)] at h
    obtain ⟨paren, ts, rfl, opens, h⟩ := h
    rw [expect_bind_read_iff hstop (by decide)] at h
    obtain ⟨bracket, ts, rfl, opens', h⟩ := h
    obtain ⟨ns, mid, hnames, hclose⟩ := bind_read_iff.mp h
    obtain ⟨us, bracket', rfl, listed, closes'⟩ := uniqueMembers_read_iff.mp hnames
    rw [expect_bind_read_iff hstop (by decide)] at hclose
    obtain ⟨paren', ts, rfl, closes, hclose⟩ := hclose
    obtain ⟨rfl, rfl⟩ := pure_read_iff.mp hclose
    exact ⟨paren :: bracket :: (us ++ [bracket', paren']), by simp,
      .mk opens opens' listed closes' closes⟩
  · rintro ⟨us, rfl, h⟩
    cases h with
    | @mk paren bracket bracket' paren' ts names opens opens' listed closes' closes =>
        rw [List.cons_append, expect_bind_cons opens, List.cons_append, expect_bind_cons opens',
          List.append_assoc]
        refine bind_read_iff.mpr ⟨names, paren' :: rest,
          uniqueMembers_read_iff.mpr ⟨ts, bracket', rfl, listed, closes'⟩, ?_⟩
        rw [expect_bind_cons closes]
        rfl

theorem cons_eq_read {m : Member} {n : Noted (List Member)} {ms : List Member}
    (h : n.cons m = ⟨[], .read ms rest⟩) : ∃ ms', ms = m :: ms' ∧ n = ⟨[], .read ms' rest⟩ := by
  obtain ⟨faults, reading⟩ := n
  cases reading with
  | read ms' rest' => cases h; exact ⟨ms', rfl, rfl⟩
  | fault e rest' => cases h
  | broken e => cases h

/-- The members that are read without a fault are written in a row, up to the closing brace. -/
theorem writesMembers_of_read (hstop : stop.kind = .endOfInput) {name : String} {ms : List Member}
    (h : members name stop ts = ⟨[], .read ms rest⟩) :
    ∃ us closing, ts = us ++ closing :: rest ∧ WritesRow WritesMember us ms ∧
      closing.kind = .closeBrace := by
  fun_induction members name stop ts generalizing ms rest with
  | case1 => cases h
  | case2 t rest' closes =>
      cases h
      exact ⟨[], t, rfl, .nil, closes⟩
  | case3 t rest' _ named f mid hf _ ih =>
      obtain ⟨ms', rfl, hmembers⟩ := cons_eq_read h
      obtain ⟨us, rfl, written⟩ := writesField_of_read hstop named hf
      obtain ⟨vs, closing, rfl, row, closes⟩ := ih hmembers
      exact ⟨t :: us ++ vs, closing, by simp, .cons (.field written) row, closes⟩
  | case6 t rest' _ _ kind text names mid hu _ ih =>
      obtain ⟨ms', rfl, hmembers⟩ := cons_eq_read h
      obtain ⟨us, rfl, listed⟩ := (unique_read_iff hstop).mp hu
      obtain ⟨vs, closing, rfl, row, closes⟩ := ih hmembers
      exact ⟨t :: us ++ vs, closing, by simp, .cons (.unique kind text listed) row, closes⟩
  | case4 | case5 | case7 | case8 | case9 | case10 | case11 => cases h

theorem ne_of_isName {k k' : TokenKind} (h : k.isName) (h' : k'.isName = false) : k ≠ k' := by
  rintro rfl
  rw [h'] at h
  cases h

theorem exists_name_of_writesField {us : List Token} {f : Field} (h : WritesField us f) :
    ∃ name vs, us = name :: vs ∧ name.kind.isName := by
  cases h with
  | mk named => exact ⟨_, _, rfl, named⟩

/-- The members of a model, and its end, begin with no sign that a field may go on with. -/
theorem ends_of_writesMembers {us : List Token} {ms : List Member} {closing : Token}
    (h : WritesRow WritesMember us ms) (closes : closing.kind = .closeBrace) :
    Ends (us ++ closing :: rest) := by
  cases h with
  | nil =>
      rintro t ⟨⟩
      simp [closes]
  | cons head tail =>
      cases head with
      | field written =>
          obtain ⟨name, vs, rfl, named⟩ := exists_name_of_writesField written
          rintro t ⟨⟩
          exact ⟨ne_of_isName named rfl, ne_of_isName named rfl, ne_of_isName named rfl⟩
      | unique kind =>
          rintro t ⟨⟩
          simp [kind]

/-- A row of members is read without a fault, up to the closing brace. -/
theorem members_of_writesRow (hstop : stop.kind = .endOfInput) {name : String} {us : List Token}
    {ms : List Member} {closing : Token} (h : WritesRow WritesMember us ms)
    (closes : closing.kind = .closeBrace) :
    members name stop (us ++ closing :: rest) = ⟨[], .read ms rest⟩ := by
  induction h with
  | nil => rw [List.nil_append, members, if_pos closes]
  | @cons _ vs _ _ head tail ih =>
      have hends : Ends (vs ++ closing :: rest) := ends_of_writesMembers tail closes
      cases head with
      | field written =>
          obtain ⟨t, us, rfl, named⟩ := exists_name_of_writesField written
          have hf := fieldNamed_of_writesField hstop written hends
          rw [List.append_assoc, List.cons_append, members, if_neg (ne_of_isName named rfl),
            if_pos named]
          split
          next heq =>
              rw [hf] at heq
              cases heq
              rw [ih]
              rfl
          next heq => rw [hf] at heq; cases heq
          next heq => rw [hf] at heq; cases heq
      | @unique t us names kind text listed =>
          have hu : unique stop (us ++ (vs ++ closing :: rest)) = .read names _ :=
            (unique_read_iff hstop).mpr ⟨us, rfl, listed⟩
          rw [List.append_assoc, List.cons_append, members, if_neg (by simp [kind]),
            if_neg (by rw [kind]; decide), if_pos kind, if_pos text]
          split
          next heq =>
              rw [hu] at heq
              cases heq
              rw [ih]
              rfl
          next heq => rw [hu] at heq; cases heq
          next heq => rw [hu] at heq; cases heq

/-- The front of a model is the word `model`, an identifier and a brace. -/
theorem modelHead_read_iff (hstop : stop.kind = .endOfInput) {first name : Token} :
    modelHead stop ts = .read (first, name) rest ↔
      ∃ opening, ts = first :: name :: opening :: rest ∧ first.kind = .model ∧
        name.kind = .identifier ∧ opening.kind = .openBrace := by
  unfold modelHead
  simp only [expect_bind_read_iff hstop (show TokenKind.model ≠ .endOfInput by decide),
    expect_bind_read_iff hstop (show TokenKind.identifier ≠ .endOfInput by decide),
    expect_bind_read_iff hstop (show TokenKind.openBrace ≠ .endOfInput by decide), pure_read_iff]
  constructor
  · rintro ⟨_, _, rfl, begins, _, _, rfl, named, opening, _, rfl, opens, ⟨⟩, rfl⟩
    exact ⟨opening, rfl, begins, named, opens⟩
  · rintro ⟨opening, rfl, begins, named, opens⟩
    exact ⟨_, _, rfl, begins, _, _, rfl, named, _, _, rfl, opens, rfl, rfl⟩

/-- A model is read without a fault exactly from the tokens that write it. -/
theorem model_read_iff (hstop : stop.kind = .endOfInput) {m : Model} :
    model stop ts = ⟨[], .read m rest⟩ ↔ ∃ us, ts = us ++ rest ∧ WritesModel us m := by
  constructor
  · intro h
    unfold model at h
    split at h
    next first name rest' hhead =>
        obtain ⟨opening, rfl, begins, named, opens⟩ := (modelHead_read_iff hstop).mp hhead
        split at h
        next faults ms rest'' hmembers =>
            cases h
            obtain ⟨us, closing, rfl, row, closes⟩ := writesMembers_of_read hstop hmembers
            exact ⟨first :: name :: opening :: (us ++ [closing]), by simp,
              .mk begins named opens row closes⟩
        next => cases h
        next => cases h
    next => cases h
    next => cases h
  · rintro ⟨us, rfl, h⟩
    cases h with
    | @mk first name opening closing us ms begins named opens row closes =>
        have hhead : modelHead stop (first :: name :: opening :: (us ++ [closing]) ++ rest) =
            .read (first, name) (us ++ closing :: rest) :=
          (modelHead_read_iff hstop).mpr ⟨opening, by simp, begins, named, opens⟩
        unfold model
        rw [hhead]
        dsimp only
        rw [members_of_writesRow hstop row closes]

/-! ### Schemas -/

/-- **A row of models** is read without a fault exactly if the grammar has it, and the models are
those that it writes. -/
theorem models_ok_iff (hstop : stop.kind = .endOfInput) {ms : List Model} :
    Reading.models stop ts = .ok (ms, []) ↔ WritesRow WritesModel ts ms := by
  constructor
  · intro h
    -- every other way to go on leaves a fault behind
    fun_induction Reading.models stop ts generalizing ms with
    | case1 =>
        cases h
        exact .nil
    | case2 t rest next faults m left hmodel ih =>
        dsimp only [next] at h
        split at h
        next hlt =>
            split at h
            next ms' es hleft =>
                rw [Except.ok.injEq, Prod.mk.injEq, List.append_eq_nil_iff] at h
                obtain ⟨rfl, rfl, rfl⟩ := h
                obtain ⟨us, hus, written⟩ := (model_read_iff hstop).mp hmodel
                rw [hus]
                exact .cons written (ih left hlt hleft)
            next => cases h
        next =>
            split at h
            next => simp at h
            next => cases h
    | case3 t rest next faults e left hmodel =>
        dsimp only [next] at h
        split at h <;> split at h <;> simp at h
    | case4 => cases h
  · intro h
    induction h with
    | nil => rw [Reading.models]
    | @cons us vs m ms head tail ih =>
        have hmodel : model stop (us ++ vs) = ⟨[], .read m vs⟩ :=
          (model_read_iff hstop).mpr ⟨us, rfl, head⟩
        obtain ⟨t, us, rfl⟩ : ∃ t us', us = t :: us' := by
          cases head
          exact ⟨_, _, rfl⟩
        have hlt : vs.length < (t :: (us ++ vs)).length := by
          rw [List.length_cons, List.length_append]
          omega
        rw [List.cons_append] at hmodel ⊢
        rw [Reading.models, hmodel]
        dsimp only
        rw [if_pos hlt, ih]
        rfl

end Reading

namespace Schema

open Grammar

/-- A list of tokens that ends in its only end of the input is read up to there. -/
theorem ofList?_append {body : List Token} {stop : Token}
    (hbody : ∀ t ∈ body, t.kind ≠ .endOfInput) (hstop : stop.kind = .endOfInput) :
    Tokens.ofList? (body ++ [stop]) = some ⟨body, stop⟩ := by
  have htake : (body ++ [stop]).takeWhile (fun t => t.kind != .endOfInput) = body := by
    rw [List.takeWhile_append_of_pos fun t ht => bne_iff_ne.mpr (hbody t ht)]
    simp [hstop]
  have hfind : (body ++ [stop]).find? (fun t => t.kind == .endOfInput) = some stop := by
    rw [List.find?_append, List.find?_eq_none.mpr fun t ht => by simpa using hbody t ht]
    simp [hstop]
  unfold Tokens.ofList?
  rw [List.getLast?_concat, htake, hfind]
  rfl

/-- Such a list is read as the models in it, with the faults. -/
theorem ofTokens_append {body : List Token} {stop : Token}
    (hbody : ∀ t ∈ body, t.kind ≠ .endOfInput) (hstop : stop.kind = .endOfInput) :
    Schema.ofTokens (body ++ [stop]) =
      (Reading.models stop body).map fun r => ⟨some ⟨r.1⟩, r.2⟩ := by
  unfold Schema.ofTokens
  rw [ofList?_append hbody hstop]

/-- **The reader recognizes the grammar.**  A list of tokens that ends in its only end of the input
is read without a fault exactly if what comes before is a row of models, and the schema that is read
is the one that is written.  If all its numbers are some, it is always read, with faults or
without. -/
theorem ofTokens_recognizes {body : List Token} {stop : Token}
    (hbody : ∀ t ∈ body, t.kind ≠ .endOfInput) (hstop : stop.kind = .endOfInput) :
    (∀ models, Schema.ofTokens (body ++ [stop]) = .ok ⟨some ⟨models⟩, []⟩ ↔
      WritesRow WritesModel body models) ∧
    ((∀ t ∈ body, t.kind = .numberLiteral → ∃ v, Literal.ofNumeral t.text = .ok v) →
      ∃ p, Schema.ofTokens (body ++ [stop]) = .ok p ∧
        (p.faults = [] ↔ ∃ models, WritesRow WritesModel body models) ∧
        ∀ models, WritesRow WritesModel body models → p.schema = some ⟨models⟩) := by
  have hread := ofTokens_append hbody hstop
  constructor
  · intro models
    rw [hread, ← Reading.models_ok_iff hstop]
    cases Reading.models stop body with
    | ok r => simp [Except.map, Prod.ext_iff]
    | error e => simp [Except.map]
  · intro hnumbers
    cases hmodels : Reading.models stop body with
    | ok r =>
        obtain ⟨ms, es⟩ := r
        refine ⟨⟨some ⟨ms⟩, es⟩, by rw [hread, hmodels]; rfl, ?_, fun models hwritten => ?_⟩
        · constructor
          · rintro rfl
            exact ⟨ms, (Reading.models_ok_iff hstop).mp hmodels⟩
          · rintro ⟨models, hwritten⟩
            rw [(Reading.models_ok_iff hstop).mpr hwritten] at hmodels
            cases hmodels
            rfl
        · rw [(Reading.models_ok_iff hstop).mpr hwritten] at hmodels
          cases hmodels
          rfl
    | error e =>
        obtain ⟨t, ht, hkind, hnumeral⟩ := Reading.models_breaks hmodels
        rcases List.mem_cons.mp ht with rfl | ht
        · rw [hstop] at hkind
          cases hkind
        · obtain ⟨v, hv⟩ := hnumbers t ht hkind
          rw [hv] at hnumeral
          cases hnumeral

/-- A model of tags, each with a rank. -/
def tagTokens : List Token :=
  [⟨.model, "model", ⟨1, 1⟩⟩, ⟨.identifier, "tag", ⟨1, 7⟩⟩, ⟨.openBrace, "\x7b", ⟨1, 11⟩⟩,
   ⟨.identifier, "id", ⟨2, 3⟩⟩, ⟨.intType, "int", ⟨2, 6⟩⟩, ⟨.atSign, "@", ⟨2, 10⟩⟩,
   ⟨.identifier, "primary_key", ⟨2, 11⟩⟩,
   ⟨.identifier, "rank", ⟨3, 3⟩⟩, ⟨.intType, "int", ⟨3, 8⟩⟩, ⟨.atSign, "@", ⟨3, 12⟩⟩,
   ⟨.identifier, "default", ⟨3, 13⟩⟩, ⟨.openParen, "(", ⟨3, 20⟩⟩, ⟨.numberLiteral, "7", ⟨3, 21⟩⟩,
   ⟨.closeParen, ")", ⟨3, 22⟩⟩,
   ⟨.composite, "@@unique", ⟨4, 3⟩⟩, ⟨.openParen, "(", ⟨4, 11⟩⟩, ⟨.openBracket, "[", ⟨4, 12⟩⟩,
   ⟨.identifier, "id", ⟨4, 13⟩⟩, ⟨.comma, ",", ⟨4, 15⟩⟩, ⟨.identifier, "rank", ⟨4, 17⟩⟩,
   ⟨.closeBracket, "]", ⟨4, 21⟩⟩, ⟨.closeParen, ")", ⟨4, 22⟩⟩, ⟨.closeBrace, "\x7d", ⟨5, 1⟩⟩]

/-- The model that they write. -/
def tag : Model :=
  { name := "tag"
    fields :=
      [{ name := "id", typeName := "int", isPrimaryKey := true, position := ⟨2, 3⟩ },
       { name := "rank", typeName := "int", default := some (.literal (.int 7))
         position := ⟨3, 3⟩ }]
    uniques := [["id", "rank"]]
    position := ⟨1, 1⟩ }

theorem tagTokens_recognized :
    WritesRow WritesModel tagTokens [tag] ∧
      ∃ p, Schema.ofTokens (tagTokens ++ [⟨.endOfInput, "", ⟨5, 2⟩⟩]) = .ok p ∧
        (p.faults = [] ↔ ∃ models, WritesRow WritesModel tagTokens models) ∧
        ∀ models, WritesRow WritesModel tagTokens models → p.schema = some ⟨models⟩ := by
  obtain ⟨hwrites, hreads⟩ :=
    @ofTokens_recognizes tagTokens ⟨.endOfInput, "", ⟨5, 2⟩⟩ (by decide) rfl
  refine ⟨(hwrites [tag]).mp (by with_unfolding_all rfl), hreads fun t ht hkind => ?_⟩
  have hseven : ∀ t ∈ tagTokens, t.kind = .numberLiteral → t.text = "7" := by decide
  exact ⟨.int 7, by rw [hseven t ht hkind]; with_unfolding_all rfl⟩

end Schema

end Schemata
