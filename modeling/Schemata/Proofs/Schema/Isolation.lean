import Mathlib.Data.List.TakeWhile
import Schemata.Proofs.Schema.Rounds

/-!
# Proofs — schemas — models apart

What is read of one model does not depend on the next, unless the arguments of an unsupported block
are never closed: those are passed over, and the next model with them (`Reading.Swallows`).

Every other rule stops at a token `model`.  Where one comes after the tokens that a rule is given,
the rule reads as if that one were the end of the input (`Rule.Local`).

* `Reading.models_append` — a model and others after it are read one after the other.
* `Schema.ofTokens_isolates` — exactly if nothing is swallowed.
-/

namespace Schemata

/-- The same reading, with more tokens that are left. -/
def Reading.extend {α : Type} (us : List Token) : Reading α → Reading α
  | .read a rest => .read a (rest ++ us)
  | .fault e rest => .fault e (rest ++ us)
  | .broken e => .broken e

/-- No model begins among the tokens. -/
def Reading.Inner (ts : List Token) : Prop := ∀ t ∈ ts, t.kind ≠ .model

theorem Reading.Inner.of_suffix {ts us : List Token} (h : Inner ts) (hus : us <:+ ts) : Inner us :=
  fun t ht => h t (hus.subset ht)

namespace Rule

open Reading

variable {α β : Type} {b t : Token} {ts : List Token} {r : Rule α} {f : α → Rule β}

/-- Given some tokens and `b` after them, the rule reads as if `b` were the end of the input. -/
def StopsAt (b : Token) (ts : List Token) (r : Rule α) : Prop :=
  ∀ stop us, r stop (ts ++ b :: us) = (r b ts).extend (b :: us)

/-- A rule that stops at `b`, wherever no model begins before it. -/
def Local (b : Token) (r : Rule α) : Prop := ∀ ts, Inner ts → StopsAt b ts r

theorem stopsAt_pure (a : α) : StopsAt b ts (pure a) := fun _ _ => rfl

theorem stopsAt_fail (problem : SyntaxProblem) (t : Token) :
    StopsAt b ts (fail problem t : Rule α) := fun _ _ => rfl

/-- A sequence stops at `b` if both of its rules do, each with the tokens it is given. -/
theorem stopsAt_bind (hr : StopsAt b ts r)
    (hf : ∀ a rest, r b ts = .read a rest → StopsAt b rest (f a)) : StopsAt b ts (r >>= f) := by
  intro stop us
  show Rule.bind r f stop (ts ++ b :: us) = Reading.extend _ (Rule.bind r f b ts)
  unfold Rule.bind
  rw [hr stop us]
  cases hread : r b ts with
  | read a rest => exact hf a rest hread stop us
  | fault e rest => rfl
  | broken e => rfl

theorem stopsAt_peek_bind_nil {f : Token → Rule β} (h : StopsAt b [] (f b)) :
    StopsAt b [] (peek >>= f) := h

theorem stopsAt_peek_bind_cons {f : Token → Rule β} (h : StopsAt b (t :: ts) (f t)) :
    StopsAt b (t :: ts) (peek >>= f) := h

theorem stopsAt_skip_bind {f : Unit → Rule β} (h : StopsAt b ts (f ())) :
    StopsAt b (t :: ts) (skip >>= f) := h

/-- Both branches have to stop at `b`, each where it is taken. -/
theorem stopsAt_ite {p : Prop} [Decidable p] {r q : Rule α} (hr : p → StopsAt b ts r)
    (hq : ¬ p → StopsAt b ts q) : StopsAt b ts (if p then r else q) := by
  split
  next h => exact hr h
  next h => exact hq h

theorem local_pure (a : α) : Local b (pure a) := fun _ _ => stopsAt_pure a

theorem local_fail (problem : SyntaxProblem) (t : Token) : Local b (fail problem t : Rule α) :=
  fun _ _ => stopsAt_fail problem t

theorem local_ite {p : Prop} [Decidable p] {r q : Rule α} (hr : Local b r) (hq : Local b q) :
    Local b (if p then r else q) := by
  split <;> assumption

/-- A sequence is local if its rules are, as what the first one leaves has no model in it either. -/
theorem local_bind (hr : Local b r) (hleaves : Leaves r) (hf : ∀ a, Local b (f a)) :
    Local b (r >>= f) := fun ts hts => stopsAt_bind (hr ts hts) fun a rest hread => by
  have hrest := hleaves b ts
  rw [hread] at hrest
  exact hf a rest (Inner.of_suffix hts hrest)

/-- To expect a token is local if `b` does not pass for it. -/
theorem local_expectWhere {test : TokenKind → Bool} (problem : SyntaxProblem)
    (hb : test b.kind = false) : Local b (expectWhere test problem) := by
  intro ts _
  cases ts with
  | nil =>
      refine stopsAt_peek_bind_nil ?_
      rw [if_neg (by simp [hb])]
      exact stopsAt_fail _ _
  | cons t ts =>
      exact stopsAt_peek_bind_cons (stopsAt_ite (fun _ => stopsAt_skip_bind (stopsAt_pure t))
        fun _ => stopsAt_fail _ _)

theorem local_expect {kind : TokenKind} (problem : SyntaxProblem) (hb : b.kind ≠ kind) :
    Local b (expect kind problem) :=
  local_expectWhere problem (beq_eq_false_iff_ne.mpr hb)

theorem local_expect_bind {kind : TokenKind} {problem : SyntaxProblem} {f : Token → Rule β}
    (hb : b.kind ≠ kind) (hf : ∀ t, Local b (f t)) : Local b (expect kind problem >>= f) :=
  local_bind (local_expect problem hb) (leaves_expect _ _) hf

/-- After a value the sequence goes on with it. -/
theorem bind_of_read {stop : Token} {a : α} {rest : List Token} (h : r stop ts = .read a rest) :
    (r >>= f) stop ts = f a stop rest := by
  show Rule.bind r f stop ts = _
  rw [Rule.bind, h]

theorem bind_of_fault {stop : Token} {e : SyntaxFault} {rest : List Token}
    (h : r stop ts = .fault e rest) : (r >>= f) stop ts = .fault e rest := by
  show Rule.bind r f stop ts = _
  rw [Rule.bind, h]

/-- So does a number that is none. -/
theorem bind_of_broken {stop : Token} {e : NumeralFault} (h : r stop ts = .broken e) :
    (r >>= f) stop ts = .broken e := by
  show Rule.bind r f stop ts = _
  rw [Rule.bind, h]

theorem local_ofNumeral (r : Except NumeralFault α) : Local b (ofNumeral r) := fun _ _ _ _ => by
  unfold ofNumeral
  cases r <;> rfl

end Rule

namespace Reading

open Rule

section

variable {b : Token} (hb : b.kind = .model)

include hb

/-- The value of a default is read up to the next model. -/
theorem local_defaultValue : Local b defaultValue := by
  intro ts hts
  cases ts with
  | nil =>
      refine stopsAt_peek_bind_nil ?_
      rw [if_neg (by simp [hb]), if_neg (by simp [hb]), if_neg (by simp [hb]), hb]
      exact stopsAt_fail _ _
  | cons t ts =>
      have hrest : Inner ts := Inner.of_suffix hts (List.suffix_cons t ts)
      refine stopsAt_peek_bind_cons (stopsAt_ite (fun _ => ?_) fun _ => stopsAt_ite (fun _ => ?_)
        fun _ => stopsAt_ite (fun _ => ?_) fun _ => ?_)
      · exact stopsAt_skip_bind (local_bind (local_ofNumeral _) (leaves_ofNumeral _)
          (fun _ => local_pure _) ts hrest)
      · exact stopsAt_skip_bind (stopsAt_pure _)
      · exact stopsAt_skip_bind (stopsAt_pure _)
      · split
        · exact stopsAt_skip_bind (local_expect_bind (by simp [hb]) (fun _ =>
            local_expect_bind (by simp [hb]) fun _ => local_pure _) ts hrest)
        · exact stopsAt_fail _ _

theorem local_defaultArgument : Local b defaultArgument :=
  local_expect_bind (by simp [hb]) fun _ => local_bind (local_defaultValue hb) leaves_defaultValue
    fun _ => local_expect_bind (by simp [hb]) fun _ => local_pure _

/-- A relation's key is read up to the next model. -/
theorem local_relationKey : Local b relationKey := by
  intro ts hts
  cases ts with
  | nil =>
      refine stopsAt_peek_bind_nil ?_
      rw [if_neg (by simp [hb])]
      exact stopsAt_pure _
  | cons t ts =>
      have hrest : Inner ts := Inner.of_suffix hts (List.suffix_cons t ts)
      exact stopsAt_peek_bind_cons (stopsAt_ite (fun _ => stopsAt_skip_bind
        (local_bind (local_expectWhere _ (by rw [hb]; rfl)) (leaves_expectWhere _ _)
          (fun _ => local_expect_bind (by simp [hb]) fun _ => local_pure _) ts hrest))
        fun _ => stopsAt_pure _)

/-- What a decorator says is read up to the next model. -/
theorem local_decoratorNamed (t : Token) : Local b (decoratorNamed t) := by
  unfold decoratorNamed
  split
  · exact local_bind (local_relationKey hb) leaves_relationKey fun _ => local_pure _
  · exact local_ite (local_pure _) (local_ite (local_pure _) (local_ite (local_pure _)
      (local_ite (local_bind (local_defaultArgument hb) leaves_defaultArgument
        fun _ => local_pure _) (local_fail _ _))))

theorem local_decorator (seen : List String) : Local b (decorator seen) :=
  local_expect_bind (by simp [hb]) fun t => local_ite (local_fail _ _)
    (local_bind (local_decoratorNamed hb t) (leaves_decoratorNamed t) fun _ => local_pure _)

omit hb in
/-- After a sign there is one decorator, and then come the others. -/
theorem decorators_cons {stop t : Token} {ts : List Token} {seen : List String}
    (signed : t.kind = .atSign) :
    decorators seen stop (t :: ts) =
      (do let (key, d) ← decorator seen
          let ds ← decorators (key :: seen)
          pure (d :: ds) : Rule (List Decorator)) stop ts := by
  rw [decorators, if_pos signed]
  split
  next key d rest heq =>
      rw [bind_of_read heq]
      show _ = Rule.bind (decorators (key :: seen)) _ stop rest
      unfold Rule.bind
      cases decorators (key :: seen) stop rest <;> rfl
  next heq => rw [bind_of_fault heq]
  next heq => rw [bind_of_broken heq]

/-- The decorators of a field are read up to the next model. -/
theorem local_decorators (seen : List String) : Local b (decorators seen) := by
  intro ts hts
  induction hn : ts.length using Nat.strong_induction_on generalizing ts seen with
  | _ n ih =>
      cases ts with
      | nil =>
          intro stop us
          rw [List.nil_append, decorators, decorators, if_neg (by simp [hb])]
          rfl
      | cons t ts =>
          intro stop us
          by_cases signed : t.kind = .atSign
          · have hrest : Inner ts := Inner.of_suffix hts (List.suffix_cons t ts)
            rw [List.cons_append, decorators_cons signed, decorators_cons signed]
            refine stopsAt_bind (local_decorator hb seen ts hrest) (fun a rest hread => ?_) stop us
            have hsuffix := leaves_decorator seen b ts
            rw [hread] at hsuffix
            have hlt : rest.length < n := hn ▸ Nat.lt_succ_of_le (List.IsSuffix.length_le hsuffix)
            exact stopsAt_bind (ih _ hlt _ rest (Inner.of_suffix hrest hsuffix) rfl)
              fun ds _ _ => stopsAt_pure _
          · rw [List.cons_append, decorators, decorators, if_neg signed, if_neg signed]
            rfl

/-- An array mark is read up to the next model. -/
theorem local_arrayMark : Local b arrayMark := by
  intro ts hts stop us
  cases ts with
  | nil =>
      cases us with
      | nil => rfl
      | cons u us =>
          rw [List.nil_append, arrayMark, if_neg (by simp [hb])]
          rfl
  | cons t ts =>
      cases ts with
      | nil =>
          rw [List.singleton_append, arrayMark, if_neg (by simp [hb])]
          rfl
      | cons u ts =>
          show arrayMark stop (t :: u :: (ts ++ b :: us)) = _
          rw [arrayMark, arrayMark]
          split <;> rfl

/-- A shape is one token, so it is read up to the next model. -/
theorem local_shape (isArray : Bool) : Local b (shape isArray) := by
  intro ts hts
  cases ts with
  | nil =>
      refine stopsAt_peek_bind_nil ?_
      rw [if_neg (by simp [hb])]
      exact stopsAt_fail _ _
  | cons t ts =>
      refine stopsAt_peek_bind_cons (stopsAt_ite (fun _ => stopsAt_skip_bind ?_)
        fun _ => stopsAt_fail _ _)
      split
      · exact stopsAt_pure _
      · exact fun _ _ => rfl

/-- A type is read up to the next model. -/
theorem local_plainType : Local b plainType := by
  intro ts hts
  cases ts with
  | nil =>
      refine stopsAt_peek_bind_nil ?_
      rw [if_neg (by rw [hb]; decide), if_neg (by simp [hb])]
      exact stopsAt_fail _ _
  | cons t ts =>
      have hrest : Inner ts := Inner.of_suffix hts (List.suffix_cons t ts)
      refine stopsAt_peek_bind_cons (stopsAt_ite (fun _ => stopsAt_skip_bind (stopsAt_pure _))
        fun _ => stopsAt_ite (fun _ => stopsAt_skip_bind ?_) fun _ => stopsAt_fail _ _)
      exact local_bind (local_arrayMark hb) leaves_arrayMark (fun isArray =>
        local_bind (local_shape hb isArray) (leaves_shape isArray) fun _ => local_pure _) ts hrest

theorem local_fieldNamed (name : Token) : Local b (fieldNamed name) :=
  local_bind (local_plainType hb) leaves_plainType fun _ =>
    local_bind (local_arrayMark hb) leaves_arrayMark fun _ =>
      local_bind (local_decorators hb []) (leaves_decorators []) fun _ => local_pure _

/-- The names of a `@@unique` block are read up to the next model. -/
theorem local_uniqueMembers : Local b uniqueMembers := by
  intro ts hts stop us
  have hname : ¬ b.kind.isName = true := by rw [hb]; decide
  fun_induction uniqueMembers b ts with
  | case1 =>
      rw [List.nil_append, uniqueMembers.eq_def]
      dsimp only
      rw [if_neg hname]
      rfl
  | case2 t named =>
      rw [List.singleton_append, uniqueMembers, if_pos named]
      rw [if_neg (by simp [hb]), if_neg (by simp [hb])]
      rfl
  | case3 t named u vs comma names rest heq ih =>
      have hvs : Inner vs :=
        Inner.of_suffix hts ((List.suffix_cons u vs).trans (List.suffix_cons t _))
      rw [List.cons_append, List.cons_append, uniqueMembers, if_pos named]
      rw [if_pos comma, ih hvs, heq]
      rfl
  | case4 t named u vs comma e rest heq ih =>
      have hvs : Inner vs :=
        Inner.of_suffix hts ((List.suffix_cons u vs).trans (List.suffix_cons t _))
      rw [List.cons_append, List.cons_append, uniqueMembers, if_pos named]
      rw [if_pos comma, ih hvs, heq]
      rfl
  | case5 t named u vs comma e heq ih => exact absurd heq uniqueMembers_ne_broken
  | case6 t named u vs comma bracket =>
      rw [List.cons_append, List.cons_append, uniqueMembers, if_pos named]
      rw [if_neg comma, if_pos bracket]
      rfl
  | case7 t named u vs comma bracket =>
      rw [List.cons_append, List.cons_append, uniqueMembers, if_pos named]
      rw [if_neg comma, if_neg bracket]
      rfl
  | case8 t ts named =>
      rw [List.cons_append, uniqueMembers.eq_def]
      dsimp only
      rw [if_neg named]
      rfl

/-- So are the arguments of the block. -/
theorem local_unique : Local b Reading.unique :=
  local_expect_bind (by simp [hb]) fun _ => local_expect_bind (by simp [hb]) fun _ =>
    local_bind (local_uniqueMembers hb) leaves_uniqueMembers fun _ =>
      local_expect_bind (by simp [hb]) fun _ => local_pure _

end

/-! ### Arguments that are not closed -/

/-- Where `depth` parentheses are open, one of the tokens closes the last of them. -/
def Closes (depth : Nat) (ts : List Token) : Prop :=
  ∃ front, front <+: ts ∧
    front.countP (·.kind = .openParen) + depth ≤ front.countP (·.kind = .closeParen)

/-- The tokens begin with a parenthesis, and none of them closes it. -/
def Unclosed (ts : List Token) : Prop :=
  ∃ t us, ts = t :: us ∧ t.kind = .openParen ∧ ¬ Closes 1 us

section

variable {b t : Token} {ts us : List Token} {depth : Nat}

/-- Where parentheses are open, a token counts towards closing them as those after it do. -/
theorem closes_cons (hdepth : 0 < depth) :
    Closes depth (t :: ts) ↔ ∃ front, front <+: ts ∧
      (t :: front).countP (·.kind = .openParen) + depth ≤
        (t :: front).countP (·.kind = .closeParen) := by
  constructor
  · rintro ⟨front, hfront, hcount⟩
    cases front with
    | nil => exact absurd hcount (by simp; omega)
    | cons u front =>
        obtain ⟨rfl, htail⟩ := List.cons_prefix_cons.mp hfront
        exact ⟨front, htail, hcount⟩
  · rintro ⟨front, hfront, hcount⟩
    exact ⟨t :: front, List.cons_prefix_cons.mpr ⟨rfl, hfront⟩, hcount⟩

/-- What closes the parentheses goes on to do so with more tokens after it. -/
theorem afterParens_append (hdepth : 0 < depth) (h : Closes depth ts) :
    afterParens depth (ts ++ us) = afterParens depth ts ++ us := by
  fun_induction afterParens depth ts with
  | case1 depth =>
      obtain ⟨front, hfront, hcount⟩ := h
      rw [List.prefix_nil.mp hfront] at hcount
      exact absurd hcount (by simp; omega)
  | case2 depth t ts opens ih =>
      obtain ⟨front, hfront, hcount⟩ := (closes_cons hdepth).mp h
      rw [List.cons_append, afterParens, if_pos opens]
      exact ih (Nat.succ_pos _) ⟨front, hfront, by simp [opens] at hcount; omega⟩
  | case3 depth t ts opens closes hlast =>
      rw [List.cons_append, afterParens, if_neg opens, if_pos closes, if_pos hlast]
  | case4 depth t ts opens closes hlast ih =>
      obtain ⟨front, hfront, hcount⟩ := (closes_cons hdepth).mp h
      rw [List.cons_append, afterParens, if_neg opens, if_pos closes, if_neg hlast]
      exact ih (by omega) ⟨front, hfront, by simp [closes] at hcount; omega⟩
  | case5 depth t ts opens closes ih =>
      obtain ⟨front, hfront, hcount⟩ := (closes_cons hdepth).mp h
      rw [List.cons_append, afterParens, if_neg opens, if_neg closes]
      exact ih hdepth ⟨front, hfront, by simpa [opens, closes] using hcount⟩

/-- Nothing is left where the parentheses are not closed. -/
theorem afterParens_of_not_closes (hdepth : 0 < depth) (h : ¬ Closes depth ts) :
    afterParens depth ts = [] := by
  fun_induction afterParens depth ts with
  | case1 => rfl
  | case2 depth t ts opens ih =>
      refine ih (Nat.succ_pos _) ?_
      rintro ⟨front, hfront, hcount⟩
      refine h ((closes_cons hdepth).mpr ⟨front, hfront, ?_⟩)
      simp [opens]
      omega
  | case3 depth t ts opens closes hlast =>
      exact absurd ((closes_cons hdepth).mpr ⟨[], List.nil_prefix, by simp [closes]; omega⟩) h
  | case4 depth t ts opens closes hlast ih =>
      refine ih (by omega) ?_
      rintro ⟨front, hfront, hcount⟩
      refine h ((closes_cons hdepth).mpr ⟨front, hfront, ?_⟩)
      simp [closes]
      omega
  | case5 depth t ts opens closes ih =>
      refine ih hdepth ?_
      rintro ⟨front, hfront, hcount⟩
      refine h ((closes_cons hdepth).mpr ⟨front, hfront, ?_⟩)
      simpa [opens, closes] using hcount

/-- A token that closes nothing does not close the last parenthesis. -/
theorem not_closes_append (h : ¬ Closes depth ts) (hb : b.kind ≠ .closeParen) :
    ¬ Closes depth (ts ++ [b]) := by
  rintro ⟨front, hfront, hcount⟩
  rcases List.prefix_concat_iff.mp hfront with rfl | hfront
  · refine h ⟨ts, List.prefix_rfl, ?_⟩
    simp [List.countP_append, hb] at hcount
    omega
  · exact h ⟨front, hfront, hcount⟩

/-- Arguments that are closed, if there are any, end before `b`. -/
theorem afterArguments_append (hb : b.kind ≠ .openParen) (h : ¬ Unclosed ts) :
    afterArguments (ts ++ b :: us) = afterArguments ts ++ b :: us := by
  cases ts with
  | nil => exact if_neg hb
  | cons t ts =>
      rw [List.cons_append, afterArguments, afterArguments]
      split
      next opens =>
          exact afterParens_append Nat.one_pos (by_contra fun hnot => h ⟨t, ts, rfl, opens, hnot⟩)
      next => rfl

/-- Arguments that are not closed go on to the end. -/
theorem afterArguments_of_unclosed (hb : b.kind ≠ .closeParen) (h : Unclosed ts) :
    afterArguments (ts ++ [b]) = [] := by
  obtain ⟨t, us, rfl, opens, hnot⟩ := h
  rw [List.cons_append, afterArguments, if_pos opens]
  exact afterParens_of_not_closes Nat.one_pos (not_closes_append hnot hb)

end

/-! ### One model after the other -/

/-- The same reading, with more tokens that are left. -/
def Noted.extend {α : Type} (us : List Token) (n : Noted α) : Noted α :=
  { n with reading := n.reading.extend us }

/-- Rounds lead to an unsupported block whose arguments are not closed. -/
def Overruns (b : Token) (ts : List Token) : Prop :=
  ∃ t us, Rounds b ts (t :: us) ∧ t.kind = .composite ∧ t.text ≠ "@@unique" ∧ Unclosed us

section

variable {name : String} {b stop t : Token} {ts us : List Token} (hb : b.kind = .model)

include hb

/-- Rounds end before the next model. -/
theorem members_append (hts : Inner ts) (h : ¬ Overruns b ts) :
    members name stop (ts ++ b :: us) = (members name b ts).extend (b :: us) := by
  have hcons : ∀ (m : Member) (n : Noted (List Member)),
      (n.extend (b :: us)).cons m = (n.cons m).extend (b :: us) := by
    rintro m ⟨faults, reading⟩
    cases reading <;> rfl
  have hround : ∀ {ts ts' : List Token}, Round b ts ts' → ¬ Overruns b ts → ¬ Overruns b ts' :=
    fun head h ⟨t, vs, tail, hover⟩ => h ⟨t, vs, .more head tail, hover⟩
  fun_induction members name b ts with
  | case1 =>
      rw [List.nil_append, members, if_neg (by simp [hb]), if_neg (by rw [hb]; decide),
        if_neg (by simp [hb]), if_pos hb]
      rfl
  | case2 t ts closes =>
      rw [List.cons_append, members, if_pos closes]
      rfl
  | case3 t ts _ named f rest hf _ ih =>
      have head := Round.field named hf
      have hlocal := local_fieldNamed hb t ts (Inner.of_suffix hts (List.suffix_cons t ts)) stop us
      rw [hf] at hlocal
      rw [List.cons_append, members_of_isName named, hlocal, ← hcons,
        ← ih (Inner.of_suffix hts (suffix_of_round head)) (hround head h)]
      rfl
  | case4 t ts _ named e rest hf =>
      have hlocal := local_fieldNamed hb t ts (Inner.of_suffix hts (List.suffix_cons t ts)) stop us
      rw [hf] at hlocal
      rw [List.cons_append, members_of_isName named, hlocal]
      rfl
  | case5 t ts _ named e hf =>
      have hlocal := local_fieldNamed hb t ts (Inner.of_suffix hts (List.suffix_cons t ts)) stop us
      rw [hf] at hlocal
      rw [List.cons_append, members_of_isName named, hlocal]
      rfl
  | case6 t ts _ _ kind text names rest hu _ ih =>
      have head := Round.unique kind text hu
      have hlocal := local_unique hb ts (Inner.of_suffix hts (List.suffix_cons t ts)) stop us
      rw [hu] at hlocal
      rw [List.cons_append, members_of_unique kind text, hlocal, ← hcons,
        ← ih (Inner.of_suffix hts (suffix_of_round head)) (hround head h)]
      rfl
  | case7 t ts _ _ kind text e rest hu =>
      have hlocal := local_unique hb ts (Inner.of_suffix hts (List.suffix_cons t ts)) stop us
      rw [hu] at hlocal
      rw [List.cons_append, members_of_unique kind text, hlocal]
      rfl
  | case8 t ts _ _ kind text e hu => exact absurd hu unique_ne_broken
  | case9 t ts _ _ kind text _ ih =>
      have head : Round b (t :: ts) (afterArguments ts) := .unsupported kind text
      have hclosed : ¬ Unclosed ts := fun hopen => h ⟨t, ts, .refl _, kind, text, hopen⟩
      rw [List.cons_append, members_unsupported kind text,
        afterArguments_append (by simp [hb]) hclosed,
        ih (Inner.of_suffix hts (suffix_of_round head)) (hround head h)]
      rfl
  | case10 t ts _ _ _ model => exact absurd model (hts t List.mem_cons_self)
  | case11 t ts brace unnamed block model _ ih =>
      have head : Round b (t :: ts) ts := .stray brace unnamed block model
      rw [List.cons_append, members_stray brace unnamed block model,
        ih (Inner.of_suffix hts (suffix_of_round head)) (hround head h)]
      rfl

/-- The front of a model ends before the next one. -/
theorem local_modelHead {a : Token} (ha : a.kind = .model) (hts : Inner ts) :
    StopsAt b (a :: ts) modelHead := by
  intro stop us
  unfold modelHead
  rw [List.cons_append, expect_bind_cons ha, expect_bind_cons ha]
  exact local_expect_bind (by simp [hb]) (fun _ => local_expect_bind (by simp [hb])
    fun _ => local_pure _) ts hts stop us

/-- After the word `model` a front is read from an identifier and a brace. -/
theorem modelHead_read_iff_of_model {a first name : Token} {rest : List Token}
    (ha : a.kind = .model) :
    modelHead b (a :: ts) = .read (first, name) rest ↔
      ∃ opening, a :: ts = first :: name :: opening :: rest ∧ name.kind = .identifier ∧
        opening.kind = .openBrace := by
  unfold modelHead
  rw [expect_bind_cons ha]
  simp only [expect_bind_read_iff_of_ne (show b.kind ≠ .identifier by simp [hb]),
    expect_bind_read_iff_of_ne (show b.kind ≠ .openBrace by simp [hb]), pure_read_iff]
  constructor
  · rintro ⟨_, _, rfl, named, opening, _, rfl, opens, ⟨⟩, rfl⟩
    exact ⟨opening, rfl, named, opens⟩
  · rintro ⟨opening, heq, named, opens⟩
    cases heq
    exact ⟨_, _, rfl, named, _, _, rfl, opens, rfl, rfl⟩

end

/-- The tokens after `model` lead past a token `b` that comes after them. -/
def Swallows (b : Token) (ts : List Token) : Prop :=
  ∃ name opening inner, ts = name :: opening :: inner ∧ name.kind = .identifier ∧
    opening.kind = .openBrace ∧ Overruns b inner

theorem synchronize_of_inner {ts : List Token} (hts : Inner ts) : synchronize ts = [] :=
  List.dropWhile_eq_nil_iff.mpr fun t ht => bne_iff_ne.mpr (hts t ht)

/-- The next model is found behind what is left of this one. -/
theorem synchronize_append {b : Token} {ts us : List Token} (hb : b.kind = .model)
    (hts : Inner ts) : synchronize (ts ++ b :: us) = b :: us := by
  unfold synchronize
  rw [List.dropWhile_append_of_pos fun t ht => bne_iff_ne.mpr (hts t ht),
    List.dropWhile_cons_of_neg (by simp [hb])]

/-- Models and faults that are found first stand before those that are found later. -/
theorem found_found (ms ms' : List Model) (es es' : List SyntaxFault)
    (r : Except NumeralFault (List Model × List SyntaxFault)) :
    (r.map (found ms' es')).map (found ms es) = r.map (found (ms ++ ms') (es ++ es')) := by
  cases r <;> simp [Except.map, found]

theorem found_nil (r : Except NumeralFault (List Model × List SyntaxFault)) :
    r.map (found [] []) = r := by
  cases r <;> rfl

/-- What is left after a model and before the next one is no model. -/
theorem models_of_inner {b stop : Token} {ts : List Token} (hb : b.kind = .model)
    (hts : Inner ts) :
    ∃ es, Reading.models b ts = .ok ([], es) ∧
      ∀ us, Reading.models stop (ts ++ b :: us) =
        (Reading.models stop (b :: us)).map (found [] es) := by
  cases ts with
  | nil => exact ⟨[], by rw [Reading.models], fun us => (found_nil _).symm⟩
  | cons t ts =>
      have ht : t.kind ≠ .model := hts t List.mem_cons_self
      refine ⟨[⟨.expectedModel, t.position⟩], ?_, fun us => ?_⟩
      · rw [models_of_fault (model_of_ne ht), synchronize_of_inner hts, Reading.models]
        rfl
      · rw [List.cons_append, models_of_fault (model_of_ne ht), ← List.cons_append,
          synchronize_append hb hts]
        rfl

section

variable {a b stop : Token} {ts us : List Token} (ha : a.kind = .model) (hb : b.kind = .model)
  (hts : Inner ts)

include ha hb hts

/-- A model that does not swallow the next one is read as if the input ended there. -/
theorem model_append (h : ¬ Swallows b ts) :
    model stop (a :: ts ++ b :: us) = (model b (a :: ts)).extend (b :: us) := by
  have hhead := local_modelHead hb ha hts stop us
  unfold model
  rw [hhead]
  cases hread : modelHead b (a :: ts) with
  | read head inner =>
      obtain ⟨first, name⟩ := head
      obtain ⟨opening, heq, named, opens⟩ := (modelHead_read_iff_of_model hb ha).mp hread
      cases heq
      have hinner : Inner inner := Inner.of_suffix hts
        ((List.suffix_cons opening inner).trans (List.suffix_cons name _))
      have hmembers : ¬ Overruns b inner := fun hover => h ⟨name, opening, inner, rfl, named, opens,
        hover⟩
      show (match members name.text stop (inner ++ b :: us) with | _ => _) = _
      rw [members_append hb hinner hmembers]
      dsimp only
      cases members name.text b inner with
      | mk faults reading => cases reading <;> rfl
  | fault e rest => rfl
  | broken e => rfl

/-- **A model and others after it** are read one after the other: first what comes before the second
`model`, as if the input ended there, and then the rest. -/
theorem models_append (h : ¬ Swallows b ts) :
    Reading.models stop (a :: ts ++ b :: us) =
      (Reading.models b (a :: ts)).bind fun r =>
        (Reading.models stop (b :: us)).map (found r.1 r.2) := by
  have hlong : model stop (a :: (ts ++ b :: us)) = (model b (a :: ts)).extend (b :: us) :=
    model_append ha hb hts h
  have hleft : (model b (a :: ts)).reading.IsLastOf ts := model_isLastOf ha
  rw [List.cons_append]
  cases hmodel : model b (a :: ts) with
  | mk faults reading =>
      rw [hmodel] at hlong hleft
      cases reading with
      | read m rest =>
          obtain ⟨es, hrest, happend⟩ := @models_of_inner b stop rest hb (Inner.of_suffix hts hleft)
          rw [models_of_read hlong, models_of_read hmodel, hrest, happend, found_found]
          rfl
      | fault e rest =>
          have hrest := Inner.of_suffix hts hleft
          rw [models_of_fault hlong, models_of_fault hmodel, synchronize_of_inner hrest,
            synchronize_append hb hrest, Reading.models]
          show _ = (Reading.models stop (b :: us)).map (found ([] ++ []) (faults ++ [e] ++ []))
          rw [List.append_nil, List.append_nil]
      | broken e =>
          have hbroken : (model stop (a :: (ts ++ b :: us))).reading = .broken e := by rw [hlong]; rfl
          have hbroken' : (model b (a :: ts)).reading = .broken e := by rw [hmodel]
          rw [models_of_broken hbroken, models_of_broken hbroken']
          rfl

end

/-! ### The next model is lost -/

section

variable {a b stop t : Token} {ts us : List Token} (hb : b.kind = .model)

include hb

/-- Rounds up to `b` are rounds with `b` behind the tokens. -/
theorem rounds_append (hts : Inner ts) (h : Rounds b ts (t :: us)) :
    Rounds stop (ts ++ [b]) (t :: us ++ [b]) := by
  generalize hvs : t :: us = vs at h
  induction h with
  | refl => exact .refl _
  | @more ts mid vs head tail ih =>
      have hmid : Inner mid := Inner.of_suffix hts (suffix_of_round head)
      refine .more ?_ (ih hmid hvs)
      cases head with
      | @field u ts rest f named read =>
          have hlocal := local_fieldNamed hb u ts (Inner.of_suffix hts (List.suffix_cons u ts)) stop []
          rw [read] at hlocal
          exact .field named hlocal
      | @unique u ts rest names kind text read =>
          have hlocal := local_unique hb ts (Inner.of_suffix hts (List.suffix_cons u ts)) stop []
          rw [read] at hlocal
          exact .unique kind text hlocal
      | @unsupported u ts kind text =>
          -- there are rounds after this one, so its arguments are closed
          have hclosed : ¬ Unclosed ts := by
            rintro ⟨v, ws, rfl, opens, hnot⟩
            have hnil : afterArguments (v :: ws) = [] := by
              rw [afterArguments, if_pos opens]
              exact afterParens_of_not_closes Nat.one_pos hnot
            rw [hnil] at tail
            cases tail with
            | refl => cases hvs
            | more head' _ => cases head'
          have hafter : afterArguments (ts ++ [b]) = afterArguments ts ++ [b] :=
            afterArguments_append (by simp [hb]) hclosed
          exact hafter ▸ .unsupported kind text
      | stray brace name block model => exact .stray brace name block model

/-- Where rounds lead to arguments that are not closed, the model goes on to the end of the input.
-/
theorem members_of_overruns {name : String} (hts : Inner ts) (h : Overruns b ts) :
    (members name stop (ts ++ [b])).reading = .fault ⟨.unclosedModel name, stop.position⟩ [] := by
  obtain ⟨t, us, hrounds, kind, text, hopen⟩ := h
  refine (precedes_of_rounds (rounds_append hb hts hrounds)).fault _ _ ?_
  rw [List.cons_append, members_unsupported kind text,
    afterArguments_of_unclosed (by simp [hb]) hopen, members]
  rfl

/-- Where the next `model` is swallowed, nothing more is read, up to the end of the input. -/
theorem models_of_swallows (ha : a.kind = .model) (hts : Inner ts) (h : Swallows b ts) :
    ∃ es name, Reading.models stop (a :: ts ++ [b]) =
      .ok ([], es ++ [⟨.unclosedModel name, stop.position⟩]) := by
  obtain ⟨name, opening, inner, rfl, named, opens, hover⟩ := h
  have hinner : Inner inner := Inner.of_suffix hts
    ((List.suffix_cons opening inner).trans (List.suffix_cons name _))
  have hmembers : (members name.text stop (inner ++ [b])).reading =
      .fault ⟨.unclosedModel name.text, stop.position⟩ [] := members_of_overruns hb hinner hover
  have hhead : modelHead stop (a :: name :: opening :: (inner ++ [b])) =
      .read (a, name) (inner ++ [b]) := by
    unfold modelHead
    rw [expect_bind_cons ha, expect_bind_cons named, expect_bind_cons opens]
    rfl
  cases hread : members name.text stop (inner ++ [b]) with
  | mk faults reading =>
      rw [hread] at hmembers
      have hmodel : model stop (a :: name :: opening :: (inner ++ [b])) =
          ⟨faults, .fault ⟨.unclosedModel name.text, stop.position⟩ []⟩ := by
        unfold model
        rw [hhead]
        dsimp only
        rw [hread]
        dsimp only at hmembers
        rw [hmembers]
      refine ⟨faults, name.text, ?_⟩
      show Reading.models stop (a :: name :: opening :: (inner ++ [b])) = _
      rw [models_of_fault hmodel, show synchronize [] = [] from rfl, Reading.models]
      simp [Except.map, found]

/-- Of the next `model` alone it is said that it has no name. -/
theorem models_singleton (hstop : stop.kind = .endOfInput) :
    Reading.models stop [b] = .ok ([], [⟨.expectedModelName, stop.position⟩]) := by
  have hmodel : model stop [b] = ⟨[], .fault ⟨.expectedModelName, stop.position⟩ []⟩ := by
    have hhead : modelHead stop [b] = .fault ⟨.expectedModelName, stop.position⟩ [] := by
      unfold modelHead
      rw [expect_bind_cons hb]
      refine bind_of_fault ?_
      show (peek >>= _) stop [] = _
      rw [peek_bind_nil, hstop]
      rfl
    unfold model
    rw [hhead]
  rw [models_of_fault hmodel, show synchronize [] = [] from rfl, Reading.models]
  rfl

end

end Reading

/-- The token stands for a number, if it is taken for one. -/
def Token.IsNumber (t : Token) : Prop :=
  t.kind = .numberLiteral → ∃ v, Literal.ofNumeral t.text = .ok v

theorem Token.isNumber_of_ne {t : Token} (h : t.kind ≠ .numberLiteral) : t.IsNumber :=
  fun hkind => absurd hkind h

/-- Where all numbers are some, the tokens are read, with faults or without. -/
theorem Reading.exists_models {stop : Token} {ts : List Token} (hstop : stop.IsNumber)
    (hts : ∀ t ∈ ts, t.IsNumber) : ∃ r, Reading.models stop ts = .ok r := by
  cases hmodels : Reading.models stop ts with
  | ok r => exact ⟨r, rfl⟩
  | error e =>
      obtain ⟨t, ht, hkind, hnumeral⟩ := models_breaks hmodels
      have hall : ∀ t ∈ stop :: ts, t.IsNumber := List.forall_mem_cons.mpr ⟨hstop, hts⟩
      obtain ⟨v, hv⟩ := hall t ht hkind
      rw [hv] at hnumeral
      cases hnumeral

namespace Schema

/-- **Models are read apart**, unless one swallows the next.  A row of tokens that begins with `model`
and has no other one comes before a token `model`, and its numbers are some.  Whatever comes after
that token and the end of the input, what is found in all of it is what is found in the first row,
as if the input ended there, and then what is found in the rest alone: exactly if the first row does
not lead past the second `model`, into the arguments of an unsupported block that are never
closed. -/
theorem ofTokens_isolates {a b : Token} {ts : List Token} (ha : a.kind = .model)
    (hb : b.kind = .model) (hts : ∀ t ∈ ts, t.kind ≠ .model ∧ t.kind ≠ .endOfInput)
    (hnumbers : ∀ t ∈ ts, t.IsNumber) :
    ¬ Reading.Swallows b ts ↔
      ∃ ms es, Reading.models b (a :: ts) = .ok (ms, es) ∧
        ∀ us stop, (∀ t ∈ us, t.kind ≠ .endOfInput) → stop.kind = .endOfInput →
          (∀ t ∈ us, t.IsNumber) →
          ∃ ms' es', Schema.ofTokens (b :: us ++ [stop]) = .ok ⟨some ⟨ms'⟩, es'⟩ ∧
            Schema.ofTokens (a :: ts ++ b :: us ++ [stop]) =
              .ok ⟨some ⟨ms ++ ms'⟩, es ++ es'⟩ := by
  have hinner : Reading.Inner ts := fun t ht => (hts t ht).1
  constructor
  · intro hswallow
    have hfirst : a.IsNumber := Token.isNumber_of_ne (by simp [ha])
    have hsecond : b.IsNumber := Token.isNumber_of_ne (by simp [hb])
    obtain ⟨⟨ms, es⟩, hmodels⟩ :=
      Reading.exists_models hsecond (List.forall_mem_cons.mpr ⟨hfirst, hnumbers⟩)
    refine ⟨ms, es, hmodels, fun us stop hus hstop hnumbers' => ?_⟩
    have hend : stop.IsNumber := Token.isNumber_of_ne (by simp [hstop])
    obtain ⟨⟨ms', es'⟩, hrest⟩ :=
      Reading.exists_models hend (List.forall_mem_cons.mpr ⟨hsecond, hnumbers'⟩)
    have hbody : ∀ t ∈ b :: us, t.kind ≠ .endOfInput :=
      List.forall_mem_cons.mpr ⟨by simp [hb], hus⟩
    have hall : ∀ t ∈ a :: ts ++ b :: us, t.kind ≠ .endOfInput := List.forall_mem_append.mpr
      ⟨List.forall_mem_cons.mpr ⟨by simp [ha], fun t ht => (hts t ht).2⟩, hbody⟩
    refine ⟨ms', es', ?_, ?_⟩
    · rw [ofTokens_append hbody hstop, hrest]
      rfl
    · rw [ofTokens_append hall hstop, Reading.models_append ha hb hinner hswallow, hmodels]
      show ((Reading.models stop (b :: us)).map (Reading.found ms es)).map _ = _
      rw [hrest]
      rfl
  · rintro ⟨ms, es, -, h⟩ hswallow
    -- the end of the input after the second `model` tells the two apart
    obtain ⟨ms', es', halone, hboth⟩ := h [] ⟨.endOfInput, "", .start⟩ nofun rfl nofun
    obtain ⟨es₀, name, hlost⟩ :=
      @Reading.models_of_swallows a b ⟨.endOfInput, "", .start⟩ ts hb ha hinner hswallow
    have hall : ∀ t ∈ a :: ts ++ [b], t.kind ≠ .endOfInput := List.forall_mem_append.mpr
      ⟨List.forall_mem_cons.mpr ⟨by simp [ha], fun t ht => (hts t ht).2⟩, by simp [hb]⟩
    rw [ofTokens_append (by simp [hb]) rfl, Reading.models_singleton hb rfl] at halone
    rw [ofTokens_append hall rfl, hlost] at hboth
    cases halone
    have hlast := congrArg List.getLast? (Parsed.mk.inj (Except.ok.inj hboth)).2
    simp at hlast

/-- What follows `model` where the text breaks off after the name of a field. -/
def unfinished : List Token :=
  [⟨.identifier, "post", ⟨1, 7⟩⟩, ⟨.openBrace, "\x7b", ⟨1, 12⟩⟩, ⟨.identifier, "id", ⟨1, 14⟩⟩]

/-- What follows `model` where the text breaks off in the arguments of an unsupported block. -/
def unclosed : List Token :=
  [⟨.identifier, "post", ⟨1, 7⟩⟩, ⟨.openBrace, "\x7b", ⟨1, 12⟩⟩, ⟨.composite, "@@index", ⟨1, 14⟩⟩,
   ⟨.openParen, "(", ⟨1, 22⟩⟩]

/-- A model without members that comes after it: its first token, and the others. -/
def next : Token := ⟨.model, "model", ⟨2, 1⟩⟩

def afterNext : List Token :=
  [⟨.identifier, "tag", ⟨2, 7⟩⟩, ⟨.openBrace, "\x7b", ⟨2, 11⟩⟩, ⟨.closeBrace, "\x7d", ⟨2, 13⟩⟩]

/-- An unfinished model is reported, and the model after it is read. -/
theorem unfinished_isolated :
    (∀ t ∈ unfinished, t.kind ≠ .model ∧ t.kind ≠ .endOfInput) ∧
      ¬ Reading.Swallows next unfinished ∧
      ∃ ms es, Reading.models next (⟨.model, "model", .start⟩ :: unfinished) = .ok (ms, es) ∧
        ∀ us stop, (∀ t ∈ us, t.kind ≠ .endOfInput) → stop.kind = .endOfInput →
          (∀ t ∈ us, t.IsNumber) →
          ∃ ms' es', Schema.ofTokens (next :: us ++ [stop]) = .ok ⟨some ⟨ms'⟩, es'⟩ ∧
            Schema.ofTokens (⟨.model, "model", .start⟩ :: unfinished ++ next :: us ++ [stop]) =
              .ok ⟨some ⟨ms ++ ms'⟩, es ++ es'⟩ := by
  have hinner : ∀ t ∈ unfinished, t.kind ≠ .model ∧ t.kind ≠ .endOfInput := by decide
  have hkinds : ∀ t ∈ unfinished, t.kind ≠ .numberLiteral := by decide
  have hswallow : ¬ Reading.Swallows next unfinished := by
    rintro ⟨name, opening, inner, heq, -, -, t, us, hrounds, kind, -, -⟩
    cases heq
    cases hrounds with
    | refl => cases kind
    | more head tail =>
        cases head with
        | field named read => with_unfolding_all cases read
        | unique kind => cases kind
        | unsupported kind => cases kind
        | stray brace name => exact name rfl
  exact ⟨hinner, hswallow, (ofTokens_isolates rfl rfl hinner fun t ht =>
    Token.isNumber_of_ne (hkinds t ht)).mp hswallow⟩

/-- The second model is read alone, and is not read after the first one. -/
theorem unclosed_swallows :
    (∀ t ∈ unclosed, t.kind ≠ .model ∧ t.kind ≠ .endOfInput) ∧
      ∃ stop : Token, stop.kind = .endOfInput ∧
        ∀ ms es ms' es', Schema.ofTokens (next :: afterNext ++ [stop]) = .ok ⟨some ⟨ms'⟩, es'⟩ →
          Schema.ofTokens (⟨.model, "model", .start⟩ :: unclosed ++ next :: afterNext ++ [stop]) ≠
            .ok ⟨some ⟨ms ++ ms'⟩, es ++ es'⟩ := by
  refine ⟨by decide, ⟨.endOfInput, "", ⟨2, 14⟩⟩, rfl, fun ms es ms' es' halone hboth => ?_⟩
  have hread : Schema.ofTokens (next :: afterNext ++ [⟨.endOfInput, "", ⟨2, 14⟩⟩]) =
      .ok ⟨some ⟨[{ name := "tag", position := ⟨2, 1⟩ }]⟩, []⟩ := by with_unfolding_all rfl
  have hlost : Schema.ofTokens (⟨.model, "model", .start⟩ :: unclosed ++ next :: afterNext ++
      [⟨.endOfInput, "", ⟨2, 14⟩⟩]) = .ok ⟨some ⟨[]⟩, [⟨.unsupportedBlock "@@index", ⟨1, 14⟩⟩,
        ⟨.unclosedModel "post", ⟨2, 14⟩⟩]⟩ := by with_unfolding_all rfl
  rw [hread] at halone
  rw [hlost] at hboth
  cases halone
  simp at hboth

end Schema

end Schemata
