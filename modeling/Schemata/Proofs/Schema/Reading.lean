import Mathlib.Data.List.Basic
import Schemata.Compilation

/-!
# Proofs — schemas — what is read

What holds of every schema that was read from a source, whatever the source.  A rule of the
grammar is given tokens of which something holds, and it holds of the tokens that are left, and of
the one that broke the reading; that carries through the rules to whole schemas (`Rule.Yields`).

* `Lexeme.isProper_scan` — a word of the scanner that is an identifier is none of the keywords.
* `Reading.models_isRead` — so no model is named by a keyword, and every number that is a default
  was written in the source.
* `Reading.models_breaks` — a reading is broken by a number that is none.
-/

namespace Schemata

/-- A token that is no keyword if it is an identifier. -/
def Token.IsProper (t : Token) : Prop :=
  t.kind = .identifier → TokenKind.ofWord t.text = .identifier

/-- A token that is taken for a number and stands for none. -/
def Token.Breaks (t : Token) (e : NumeralFault) : Prop :=
  t.kind = .numberLiteral ∧ Literal.ofNumeral t.text = .error e

/-- A literal as a source can write it: a number is what a numeral stands for. -/
def Literal.IsRead : Literal → Prop
  | .bool _ => True
  | .text _ => True
  | v => ∃ text, Literal.ofNumeral text = .ok v

def Default.IsRead : Default → Prop
  | .literal v => v.IsRead
  | .call _ => True

def Decorator.IsRead : Decorator → Prop
  | .default d => d.IsRead
  | _ => True

def Field.IsRead (f : Field) : Prop := ∀ d, f.default = some d → d.IsRead

def Reading.Member.IsRead : Reading.Member → Prop
  | .field f => f.IsRead
  | .unique _ => True

/-- A model as a source can write it. -/
structure Model.IsRead (m : Model) : Prop where
  name : TokenKind.ofWord m.name = .identifier
  fields : ∀ f ∈ m.fields, f.IsRead

/-! ### Rules -/

/-- The value satisfies `P`, if there is one, and the tokens that are left satisfy `T`, or the one
that broke the reading does. -/
def Reading.Holds {α : Type} (T : Token → Prop) (P : α → Prop) : Reading α → Prop
  | .read a rest => P a ∧ ∀ t ∈ rest, T t
  | .fault _ rest => ∀ t ∈ rest, T t
  | .broken e => ∃ t, T t ∧ t.Breaks e

/-- A rule whose reading of tokens that satisfy `T` gives a value that satisfies `P`, leaves tokens
that satisfy `T`, and is broken by no other token. -/
def Rule.Yields {α : Type} (T : Token → Prop) (P : α → Prop) (r : Rule α) : Prop :=
  ∀ stop ts, T stop → (∀ t ∈ ts, T t) → (r stop ts).Holds T P

namespace Rule

variable {α β : Type} {T : Token → Prop} {P : α → Prop} {Q : β → Prop}

theorem yields_pure {a : α} (h : P a) : Yields T P (pure a) := fun _ _ _ hts => ⟨h, hts⟩

/-- A sequence yields what its second rule makes of what the first one yields. -/
theorem yields_bind {r : Rule α} {f : α → Rule β} (hr : Yields T P r)
    (hf : ∀ a, P a → Yields T Q (f a)) : Yields T Q (r >>= f) := by
  intro stop ts hstop hts
  have h := hr stop ts hstop hts
  show (Rule.bind r f stop ts).Holds T Q
  unfold Rule.bind
  cases hread : r stop ts with
  | read a rest =>
      rw [hread] at h
      exact hf a h.1 stop rest hstop h.2
  | fault e rest =>
      rw [hread] at h
      exact h
  | broken e =>
      rw [hread] at h
      exact h

/-- Both branches have to yield it, each where it is taken. -/
theorem yields_ite {p : Prop} [Decidable p] {r q : Rule α} (hr : p → Yields T P r)
    (hq : ¬ p → Yields T P q) : Yields T P (if p then r else q) := by
  split
  next h => exact hr h
  next h => exact hq h

/-- The next token, or the end, is one that satisfies what all of them do. -/
theorem yields_peek : Yields T T peek := fun stop ts hstop hts => by
  refine ⟨?_, hts⟩
  cases ts with
  | nil => exact hstop
  | cons t ts => exact hts t List.mem_cons_self

theorem yields_skip : Yields T (fun _ => True) skip := fun _ _ _ hts =>
  ⟨trivial, fun t ht => hts t (List.mem_of_mem_tail ht)⟩

theorem yields_fail (problem : SyntaxProblem) (t : Token) : Yields T P (fail problem t) :=
  fun _ _ _ hts => hts

/-- A token that is taken has passed the test. -/
theorem yields_expectWhere (test : TokenKind → Bool) (problem : SyntaxProblem) :
    Yields T (fun t => T t ∧ test t.kind) (expectWhere test problem) :=
  yields_bind yields_peek fun t ht => yields_ite
    (fun htest => yields_bind yields_skip fun _ _ => yields_pure ⟨ht, htest⟩)
    (fun _ => yields_fail problem t)

/-- A token that is taken is of the kind. -/
theorem yields_expect (kind : TokenKind) (problem : SyntaxProblem) :
    Yields T (fun t => T t ∧ t.kind = kind) (expect kind problem) := fun stop ts hstop hts => by
  have h := yields_expectWhere (· == kind) problem stop ts hstop hts
  unfold expect
  cases hread : expectWhere (· == kind) problem stop ts with
  | read a rest =>
      rw [hread] at h
      exact ⟨⟨h.1.1, eq_of_beq h.1.2⟩, h.2⟩
  | fault e rest =>
      rw [hread] at h
      exact h
  | broken e =>
      rw [hread] at h
      exact h

/-- What is made of a numeral is the number that it stands for. -/
theorem yields_ofNumeral {t : Token} (ht : T t) (hkind : t.kind = .numberLiteral) :
    Yields T (fun v => Literal.ofNumeral t.text = .ok v) (ofNumeral (Literal.ofNumeral t.text)) :=
  fun stop ts _ hts => by
    unfold ofNumeral
    cases h : Literal.ofNumeral t.text with
    | ok v => exact ⟨rfl, hts⟩
    | error e => exact ⟨t, ht, hkind, h⟩

end Rule

namespace Reading

open Rule

variable {T : Token → Prop}

/-! ### Fields -/

/-- The value of a default was read from tokens. -/
theorem yields_defaultValue : Yields T Default.IsRead defaultValue := by
  refine yields_bind yields_peek fun t ht => yields_ite (fun hkind => ?_) fun _ =>
    yields_ite (fun _ => ?_) fun _ => yields_ite (fun _ => ?_) fun _ => ?_
  · refine yields_bind yields_skip fun _ _ => yields_bind (yields_ofNumeral ht hkind) fun v hv =>
      yields_pure ?_
    cases v with
    | bool => trivial
    | text => trivial
    | int => exact ⟨t.text, hv⟩
    | float => exact ⟨t.text, hv⟩
  · exact yields_bind yields_skip fun _ _ => yields_pure trivial
  · exact yields_bind yields_skip fun _ _ => yields_pure trivial
  · split
    · exact yields_bind yields_skip fun _ _ => yields_bind (yields_expect _ _) fun _ _ =>
        yields_bind (yields_expect _ _) fun _ _ => yields_pure trivial
    · exact yields_fail _ _

theorem yields_defaultArgument : Yields T Default.IsRead defaultArgument :=
  yields_bind (yields_expect _ _) fun _ _ => yields_bind yields_defaultValue fun _ hd =>
    yields_bind (yields_expect _ _) fun _ _ => yields_pure hd

theorem yields_relationKey : Yields T (fun _ => True) relationKey :=
  yields_bind yields_peek fun _ _ => yields_ite
    (fun _ => yields_bind yields_skip fun _ _ => yields_bind (yields_expectWhere _ _) fun _ _ =>
      yields_bind (yields_expect _ _) fun _ _ => yields_pure trivial)
    (fun _ => yields_pure trivial)

/-- What a decorator says was read from tokens. -/
theorem yields_decoratorNamed (t : Token) : Yields T Decorator.IsRead (decoratorNamed t) := by
  unfold decoratorNamed
  split
  · exact yields_bind yields_relationKey fun _ _ => yields_pure trivial
  · exact yields_ite (fun _ => yields_pure trivial) fun _ =>
      yields_ite (fun _ => yields_pure trivial) fun _ =>
        yields_ite (fun _ => yields_pure trivial) fun _ =>
          yields_ite (fun _ => yields_bind yields_defaultArgument fun _ hd => yields_pure hd)
            fun _ => yields_fail _ _

theorem yields_decorator (seen : List String) :
    Yields T (fun d : String × Decorator => d.2.IsRead) (decorator seen) :=
  yields_bind (yields_expect _ _) fun t _ => yields_ite (fun _ => yields_fail _ _)
    fun _ => yields_bind (yields_decoratorNamed t) fun _ hd => yields_pure hd

/-- Every decorator of a field was read from tokens. -/
theorem yields_decorators (seen : List String) :
    Yields T (fun ds => ∀ d ∈ ds, d.IsRead) (decorators seen) := by
  intro stop ts hstop hts
  -- the recursion is on what a decorator leaves, and that satisfies `T` again
  fun_induction decorators seen stop ts with
  | case1 => exact ⟨fun d hd => absurd hd List.not_mem_nil, hts⟩
  | case2 seen t ts _ key d mid hd _ ds rest hds ih =>
      have hmid := yields_decorator seen stop ts hstop fun t ht => hts t (List.mem_cons_of_mem _ ht)
      rw [hd] at hmid
      have hrest := ih hmid.2
      rw [hds] at hrest
      exact ⟨List.forall_mem_cons.mpr ⟨hmid.1, hrest.1⟩, hrest.2⟩
  | case3 seen t ts _ key d mid hd _ e rest hds ih =>
      have hmid := yields_decorator seen stop ts hstop fun t ht => hts t (List.mem_cons_of_mem _ ht)
      rw [hd] at hmid
      have hrest := ih hmid.2
      rw [hds] at hrest
      exact hrest
  | case4 seen t ts _ key d mid hd _ e hds ih =>
      have hmid := yields_decorator seen stop ts hstop fun t ht => hts t (List.mem_cons_of_mem _ ht)
      rw [hd] at hmid
      have hrest := ih hmid.2
      rw [hds] at hrest
      exact hrest
  | case5 seen t ts _ e mid hd =>
      have hmid := yields_decorator seen stop ts hstop fun t ht => hts t (List.mem_cons_of_mem _ ht)
      rw [hd] at hmid
      exact hmid
  | case6 seen t ts _ e hd =>
      have hmid := yields_decorator seen stop ts hstop fun t ht => hts t (List.mem_cons_of_mem _ ht)
      rw [hd] at hmid
      exact hmid
  | case7 => exact ⟨fun d hd => absurd hd List.not_mem_nil, hts⟩

theorem yields_arrayMark : Yields T (fun _ => True) arrayMark := fun stop ts _ hts => by
  unfold arrayMark
  split
  next a b rest =>
      split
      · exact ⟨trivial, fun t ht => hts t (List.mem_cons_of_mem a (List.mem_cons_of_mem b ht))⟩
      · exact ⟨trivial, hts⟩
  next => exact ⟨trivial, hts⟩

theorem yields_shape (isArray : Bool) : Yields T (fun _ => True) (shape isArray) := by
  refine yields_bind yields_peek fun t _ => yields_ite
    (fun _ => yields_bind yields_skip fun _ _ => ?_) (fun _ => yields_fail _ _)
  split
  · exact yields_pure trivial
  · exact fun _ _ _ hts => hts

theorem yields_plainType : Yields T (fun _ => True) plainType :=
  yields_bind yields_peek fun _ _ => yields_ite
    (fun _ => yields_bind yields_skip fun _ _ => yields_pure trivial)
    (fun _ => yields_ite
      (fun _ => yields_bind yields_skip fun _ _ => yields_bind yields_arrayMark fun _ _ =>
        yields_bind (yields_shape _) fun _ _ => yields_pure trivial)
      (fun _ => yields_fail _ _))

/-- A decorator that was read keeps the field one that was read. -/
theorem isRead_decorate {f : Field} {d : Decorator} (hf : f.IsRead) (hd : d.IsRead) :
    (f.decorate d).IsRead := by
  cases d with
  | default d => intro d' h; cases h; exact hd
  | _ => exact hf

/-- So do any number of decorators. -/
theorem isRead_foldl_decorate {f : Field} {ds : List Decorator} (hf : f.IsRead)
    (hds : ∀ d ∈ ds, d.IsRead) : (ds.foldl Field.decorate f).IsRead := by
  induction ds generalizing f with
  | nil => exact hf
  | cons d ds ih =>
      obtain ⟨hd, hds⟩ := List.forall_mem_cons.mp hds
      exact ih (isRead_decorate hf hd) hds

/-- A field was read from tokens, with all of its decorators. -/
theorem yields_fieldNamed (name : Token) : Yields T Field.IsRead (fieldNamed name) :=
  yields_bind yields_plainType fun _ _ => yields_bind yields_arrayMark fun _ _ =>
    yields_bind (yields_decorators []) fun _ hds => yields_pure
      (isRead_foldl_decorate (fun _ h => by cases h) hds)

/-! ### Models -/

theorem yields_uniqueMembers : Yields T (fun _ => True) uniqueMembers := by
  intro stop ts hstop hts
  fun_induction uniqueMembers stop ts with
  | case3 t _ u us _ names rest heq ih =>
      have := ih fun t ht => hts t (List.mem_cons_of_mem _ (List.mem_cons_of_mem _ ht))
      rw [heq] at this
      exact ⟨trivial, this.2⟩
  | case4 t _ u us _ e rest heq ih =>
      have := ih fun t ht => hts t (List.mem_cons_of_mem _ (List.mem_cons_of_mem _ ht))
      rw [heq] at this
      exact this
  | case5 t _ u us _ e heq ih =>
      have := ih fun t ht => hts t (List.mem_cons_of_mem _ (List.mem_cons_of_mem _ ht))
      rw [heq] at this
      exact this
  | case6 t _ u us _ _ =>
      exact ⟨trivial, fun t ht => hts t (List.mem_cons_of_mem _ (List.mem_cons_of_mem _ ht))⟩
  | case1 => exact fun t ht => absurd ht List.not_mem_nil
  | case2 => exact fun t ht => absurd ht List.not_mem_nil
  | case7 t _ u us _ _ => exact fun t ht => hts t (List.mem_cons_of_mem _ ht)
  | case8 => exact hts

theorem yields_unique : Yields T (fun _ => True) unique :=
  yields_bind (yields_expect _ _) fun _ _ => yields_bind (yields_expect _ _) fun _ _ =>
    yields_bind yields_uniqueMembers fun _ _ => yields_bind (yields_expect _ _) fun _ _ =>
      yields_pure trivial

/-- What follows a closing parenthesis was there before. -/
theorem mem_of_mem_afterParens {depth : Nat} {ts : List Token} {t : Token}
    (h : t ∈ afterParens depth ts) : t ∈ ts := by
  fun_induction afterParens depth ts with
  | case1 => exact h
  | case3 => exact List.mem_cons_of_mem _ h
  | case2 _ _ _ _ ih => exact List.mem_cons_of_mem _ (ih h)
  | case4 _ _ _ _ _ _ ih => exact List.mem_cons_of_mem _ (ih h)
  | case5 _ _ _ _ _ ih => exact List.mem_cons_of_mem _ (ih h)

/-- What follows the arguments of a block was there before. -/
theorem mem_of_mem_afterArguments {ts : List Token} {t : Token} (h : t ∈ afterArguments ts) :
    t ∈ ts := by
  unfold afterArguments at h
  split at h
  · exact h
  · split at h
    · exact List.mem_cons_of_mem _ (mem_of_mem_afterParens h)
    · exact h

/-- One more member that was read keeps all members ones that were read. -/
theorem holds_cons {m : Member} {n : Noted (List Member)} (hm : m.IsRead)
    (hn : n.reading.Holds T fun ms => ∀ m ∈ ms, m.IsRead) :
    (n.cons m).reading.Holds T fun ms => ∀ m ∈ ms, m.IsRead := by
  obtain ⟨faults, reading⟩ := n
  cases reading with
  | read ms rest => exact ⟨List.forall_mem_cons.mpr ⟨hm, hn.1⟩, hn.2⟩
  | fault e rest => exact hn
  | broken e => exact hn

/-- The members of a model were read from tokens. -/
theorem holds_members (name : String) {stop : Token} {ts : List Token} (hstop : T stop)
    (hts : ∀ t ∈ ts, T t) :
    (members name stop ts).reading.Holds T fun ms => ∀ m ∈ ms, m.IsRead := by
  have htail : ∀ {t : Token} {rest : List Token}, (∀ u ∈ t :: rest, T u) → ∀ u ∈ rest, T u :=
    fun h u hu => h u (List.mem_cons_of_mem _ hu)
  fun_induction members name stop ts with
  | case1 => exact hts
  | case2 => exact ⟨fun m hm => absurd hm List.not_mem_nil, htail hts⟩
  | case3 t rest _ _ f mid hf _ ih =>
      have h := yields_fieldNamed t stop rest hstop (htail hts)
      rw [hf] at h
      exact holds_cons h.1 (ih h.2)
  | case4 t rest _ _ e mid hf =>
      have h := yields_fieldNamed t stop rest hstop (htail hts)
      rw [hf] at h
      exact h
  | case5 t rest _ _ e hf =>
      have h := yields_fieldNamed t stop rest hstop (htail hts)
      rw [hf] at h
      exact h
  | case6 t rest _ _ _ _ names mid hu _ ih =>
      have h := yields_unique stop rest hstop (htail hts)
      rw [hu] at h
      exact holds_cons trivial (ih h.2)
  | case7 t rest _ _ _ _ e mid hu =>
      have h := yields_unique stop rest hstop (htail hts)
      rw [hu] at h
      exact h
  | case8 t rest _ _ _ _ e hu =>
      have h := yields_unique stop rest hstop (htail hts)
      rw [hu] at h
      exact h
  | case9 t rest _ _ _ _ _ ih =>
      exact ih fun u hu => htail hts u (mem_of_mem_afterArguments hu)
  | case10 => exact hts
  | case11 t rest _ _ _ _ _ ih => exact ih (htail hts)

theorem yields_modelHead :
    Yields T (fun head : Token × Token => T head.2 ∧ head.2.kind = .identifier) modelHead :=
  yields_bind (yields_expect _ _) fun _ _ => yields_bind (yields_expect _ _) fun _ hname =>
    yields_bind (yields_expect _ _) fun _ _ => yields_pure hname

/-- A model that is read is named by an identifier, and its fields are as a source can write
them. -/
theorem holds_model {stop : Token} {ts : List Token} (hstop : T stop) (hts : ∀ t ∈ ts, T t) :
    (model stop ts).reading.Holds T fun m =>
      (∃ name, T name ∧ name.kind = .identifier ∧ name.text = m.name) ∧
        ∀ f ∈ m.fields, f.IsRead := by
  have hhead := yields_modelHead stop ts hstop hts
  unfold model
  cases hread : modelHead stop ts with
  | read head rest =>
      rw [hread] at hhead
      obtain ⟨⟨hname, hkind⟩, hrest⟩ := hhead
      have hmembers := holds_members head.2.text hstop hrest
      dsimp only
      cases hms : members head.2.text stop rest with
      | mk faults reading =>
          rw [hms] at hmembers
          cases reading with
          | read ms rest' =>
              refine ⟨⟨⟨head.2, hname, hkind, rfl⟩, fun f hf => ?_⟩, hmembers.2⟩
              obtain ⟨m, hm, hfield⟩ := List.mem_filterMap.mp hf
              have := hmembers.1 m hm
              cases m with
              | field g => cases hfield; exact this
              | unique names => cases hfield
          | fault e rest' => exact hmembers
          | broken e => exact hmembers
  | fault e rest =>
      rw [hread] at hhead
      exact hhead
  | broken e =>
      rw [hread] at hhead
      exact hhead

/-- The models satisfy `P`, or the token that broke the reading satisfies `T`. -/
def Finds (T : Token → Prop) (P : Model → Prop) :
    Except NumeralFault (List Model × List SyntaxFault) → Prop
  | .ok (ms, _) => ∀ m ∈ ms, P m
  | .error e => ∃ t, T t ∧ t.Breaks e

variable {P : Model → Prop}

/-- What is found first is added to what is found later. -/
theorem Finds.append {found : List Model} (hfound : ∀ m ∈ found, P m)
    (faults : List SyntaxFault → List SyntaxFault)
    {r : Except NumeralFault (List Model × List SyntaxFault)} :
    Finds T P r → Finds T P (match r with
      | .ok (ms, es) => .ok (found ++ ms, faults es)
      | .error e => .error e) := by
  intro h
  cases r with
  | ok r => exact List.forall_mem_append.mpr ⟨hfound, h⟩
  | error e => exact h

/-- What holds of every model that is read holds of all that are found. -/
theorem finds_models {stop : Token} {ts : List Token}
    (hmodel : ∀ ts, (∀ t ∈ ts, T t) → (model stop ts).reading.Holds T P) (hts : ∀ t ∈ ts, T t) :
    Finds T P (Reading.models stop ts) := by
  -- after a model or a fault, reading goes on with the tokens that are left, which are fewer
  fun_induction Reading.models stop ts with
  | case1 => exact fun m hm => absurd hm List.not_mem_nil
  | case2 t rest next faults m left hread ih ih' =>
      have hm := hmodel _ hts
      rw [hread] at hm
      have hfound : ∀ n ∈ [m], P n := List.forall_mem_singleton.mpr hm.1
      dsimp only [next]
      split
      next hlt => exact .append hfound _ (ih left hlt hm.2)
      next => exact .append hfound _ (ih' fun u hu => hts u (List.mem_cons_of_mem t hu))
  | case3 t rest next faults e left hread ih ih' =>
      have hm := hmodel _ hts
      rw [hread] at hm
      have hfound : ∀ n ∈ [], P n := fun n hn => absurd hn List.not_mem_nil
      dsimp only [next]
      split
      next hlt =>
          exact .append hfound _
            (ih _ hlt fun u hu => hm u ((List.dropWhile_suffix _).subset hu))
      next => exact .append hfound _ (ih' fun u hu => hts u (List.mem_cons_of_mem t hu))
  | case4 t rest faults e hread =>
      have hm := hmodel _ hts
      rw [hread] at hm
      exact hm

/-- Every model that is found was read from tokens. -/
theorem models_isRead {stop : Token} {ts : List Token} (hstop : stop.IsProper)
    (hts : ∀ t ∈ ts, t.IsProper) {ms : List Model} {es : List SyntaxFault}
    (h : Reading.models stop ts = .ok (ms, es)) : ∀ m ∈ ms, m.IsRead := by
  have hfinds := finds_models (fun _ hts => holds_model hstop hts) hts
  rw [h] at hfinds
  intro m hm
  obtain ⟨⟨name, hname, hkind, heq⟩, hfields⟩ := hfinds m hm
  exact ⟨heq ▸ hname hkind, hfields⟩

/-- **A reading is broken by a number that is none**, among the tokens that are read. -/
theorem models_breaks {stop : Token} {ts : List Token} {e : NumeralFault}
    (h : Reading.models stop ts = .error e) : ∃ t ∈ stop :: ts, t.Breaks e := by
  have hfinds := finds_models (T := fun t => t ∈ stop :: ts)
    (fun _ => holds_model List.mem_cons_self) fun t ht => List.mem_cons_of_mem stop ht
  rw [h] at hfinds
  exact hfinds

end Reading

/-! ### Words -/

namespace Lexeme

/-- What may name a field is a word, and of the kind that its letters say. -/
theorem word_of_first {armed : Bool} {c : Char} {cs : List Char} {kind : TokenKind}
    {value : String} (h : (first armed c cs).kind = .token kind value) (hkind : kind.isName = true) :
    isWordStart c = true ∧ value = String.ofList (c :: cs.takeWhile isWordPart) ∧
      TokenKind.ofWord value = kind := by
  unfold first at h
  split at h
  · cases h
  split at h
  · unfold slash at h
    split at h
    · cases h
    · split at h <;> cases h
    · cases h
  split at h
  · unfold brace at h
    split at h
    · split at h <;> cases h
      cases hkind
    · cases h
      cases hkind
  split at h
  · unfold atSign at h
    split at h
    · dsimp only at h
      split at h <;> cases h
      cases hkind
    · cases h
      cases hkind
  split at h
  · unfold string at h
    split at h <;> cases h
    cases hkind
  split at h
  next hstart =>
      unfold word at h
      rw [LexemeKind.token.injEq] at h
      obtain ⟨rfl, rfl⟩ := h
      exact ⟨hstart, rfl, rfl⟩
  split at h
  · unfold number at h
    dsimp only at h
    split at h
    · split at h <;> cases h
      cases hkind
    · cases h
      cases hkind
  split at h
  next kind' hsign =>
      rw [LexemeKind.token.injEq] at h
      obtain ⟨rfl, -⟩ := h
      unfold TokenKind.ofSign? at hsign
      split at hsign <;> cases hsign <;> cases hkind
  next => cases h

/-- An identifier is no word of the language. -/
theorem ofWord_of_mem_split {armed : Bool} {cs : List Char} {x : Lexeme} {value : String}
    (hx : x ∈ split armed cs) (h : x.kind = .token .identifier value) :
    TokenKind.ofWord value = .identifier := by
  fun_induction split armed cs with
  | case1 => cases hx
  | case2 armed c cs y ih =>
      rcases List.mem_cons.mp hx with rfl | hx
      · exact (word_of_first h rfl).2.2
      · exact ih hx

/-- A lexeme that has a place is one of the text. -/
theorem mem_of_mem_placed {p q : Position} {x : Lexeme} {xs : List Lexeme}
    (h : (q, x) ∈ placed p xs) : x ∈ xs := by
  induction xs generalizing p with
  | nil => cases h
  | cons y ys ih =>
      unfold placed at h
      rcases List.mem_cons.mp h with h | h
      · cases h
        exact List.mem_cons_self
      · exact List.mem_cons_of_mem y (ih h)

/-- Every token of a source is as the scanner makes them. -/
theorem isProper_scan {source : String} {t : Token} (h : t ∈ (Token.scan source).tokens) :
    t.IsProper := by
  intro hkind
  rcases List.mem_append.mp h with h | h
  · obtain ⟨⟨p, x⟩, hx, ht⟩ := List.mem_filterMap.mp h
    dsimp only [token?] at ht
    cases hx' : x.kind with
    | token kind value =>
        rw [hx'] at ht
        cases ht
        cases hkind
        exact ofWord_of_mem_split (mem_of_mem_placed hx) hx'
    | blank => rw [hx'] at ht; cases ht
    | dropped problem => rw [hx'] at ht; cases ht
  · rw [List.mem_singleton.mp h] at hkind
    cases hkind

end Lexeme

end Schemata
