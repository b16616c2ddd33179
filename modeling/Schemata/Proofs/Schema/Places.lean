import Schemata.Proofs.Schema.Breaking
import Schemata.Proofs.Schema.Isolation
import Schemata.Proofs.Shape.Recognition
import Schemata.Proofs.Token.Order

/-!
# Proofs — schemas — places of faults

Faults are found in the order of the source.  A rule that cannot go on tells of a place in one of
the tokens that it was given, and of none behind a token that it leaves (`Rule.InPlace`).  So what is
noted in a model comes before what ends it, and what is found in one model before what is found in
the next (`Reading.inPlace_model`, `Reading.models_inPlace`).

* `compile_faults_inPlace` — so the faults of a source stand at different places of it, in order.
-/

namespace Schemata

/-- A fault is told of at a place in one of the given tokens, and no token that is left begins
before it. -/
def Reading.Tells {α : Type} (given : List Token) (stop : Token) : Reading α → Prop
  | .fault e rest =>
    (∃ t ∈ given, t.Holds e.position) ∧ ∀ u ∈ rest ++ [stop], e.position ≤ u.position
  | _ => True

/-- A place in some of the tokens is one in all of them. -/
theorem Reading.Tells.mono {α : Type} {r : Reading α} {ts us : List Token} {stop : Token}
    (h : r.Tells ts stop) (hts : ts ⊆ us) : r.Tells us stop := by
  cases r with
  | fault e rest =>
      obtain ⟨⟨t, ht, he⟩, hrest⟩ := h
      exact ⟨⟨t, hts ht, he⟩, hrest⟩
  | read | broken => trivial

/-- A place in tokens that are left is one in the tokens before. -/
theorem Reading.Tells.of_suffix {α : Type} {r : Reading α} {ts us : List Token} {stop : Token}
    (h : r.Tells (us ++ [stop]) stop) (hus : us <:+ ts) : r.Tells (ts ++ [stop]) stop :=
  h.mono fun _ hu => List.mem_append.mpr ((List.mem_append.mp hu).imp_left (hus.subset ·))

namespace Rule

open Reading Token

variable {α β : Type} {r : Rule α} {f : α → Rule β} {t : Token}

/-- Among tokens in a row, the rule tells of places in them. -/
def InPlace (r : Rule α) : Prop :=
  ∀ stop ts, InOrder stop ts → (r stop ts).Tells (ts ++ [stop]) stop

/-- So does a rule that has looked at the token that comes next. -/
def InPlaceAt (t : Token) (r : Rule α) : Prop :=
  ∀ stop ts, InOrder stop ts → ts.head?.getD stop = t → (r stop ts).Tells (ts ++ [stop]) stop

/-- So does a rule that comes after a token, and may tell of that. -/
def InPlaceAfter (t : Token) (r : Rule α) : Prop :=
  ∀ stop ts, InOrder stop ts → (∀ u ∈ ts ++ [stop], t.position ≤ u.position) →
    (r stop ts).Tells (t :: (ts ++ [stop])) stop

theorem InPlace.at (h : InPlace r) : InPlaceAt t r := fun stop ts hts _ => h stop ts hts

theorem InPlace.after (h : InPlace r) : InPlaceAfter t r := fun stop ts hts _ =>
  (h stop ts hts).mono (List.subset_cons_self t _)

/-- The token that comes next is one of those that are given, and none begins before it. -/
theorem next_mem_and_le {stop : Token} {ts : List Token} (hts : InOrder stop ts)
    (ht : ts.head?.getD stop = t) :
    t ∈ ts ++ [stop] ∧ ∀ u ∈ ts ++ [stop], t.position ≤ u.position := by
  cases ts with
  | nil =>
      cases ht
      refine ⟨List.mem_cons_self, fun u hu => ?_⟩
      obtain rfl := List.mem_singleton.mp hu
      exact le_refl _
  | cons t' ts =>
      cases ht
      refine ⟨List.mem_cons_self, fun u hu => ?_⟩
      rcases List.mem_cons.mp hu with rfl | hu
      · exact le_refl _
      · exact (hts.precedes hu).begins.le

theorem inPlace_pure (a : α) : InPlace (pure a) := fun _ _ _ => trivial

theorem inPlaceAt_fail (problem : SyntaxProblem) (t : Token) :
    InPlaceAt t (fail problem t : Rule α) := fun _ _ hts ht =>
  ⟨⟨t, (next_mem_and_le hts ht).1, t.holds_self⟩, (next_mem_and_le hts ht).2⟩

theorem inPlaceAfter_fail (problem : SyntaxProblem) (t : Token) :
    InPlaceAfter t (fail problem t : Rule α) := fun _ _ _ hle =>
  ⟨⟨t, List.mem_cons_self, t.holds_self⟩, hle⟩

/-- Both branches have to tell of places, whichever token comes next. -/
theorem inPlaceAt_ite {p : Prop} [Decidable p] {r q : Rule α} (hr : InPlaceAt t r)
    (hq : InPlaceAt t q) : InPlaceAt t (if p then r else q) := by
  split <;> assumption

theorem inPlaceAfter_ite {p : Prop} [Decidable p] {r q : Rule α} (hr : InPlaceAfter t r)
    (hq : InPlaceAfter t q) : InPlaceAfter t (if p then r else q) := by
  split <;> assumption

/-- A sequence tells of places if its first rule does, and the second where the first was read. -/
theorem tells_bind {given ts : List Token} {stop : Token} (hr : (r stop ts).Tells given stop)
    (hf : ∀ a rest, r stop ts = .read a rest → (f a stop rest).Tells given stop) :
    ((r >>= f) stop ts).Tells given stop := by
  show (Rule.bind r f stop ts).Tells given stop
  unfold Rule.bind
  cases h : r stop ts with
  | read a rest => exact hf a rest h
  | fault e rest =>
      rw [h] at hr
      exact hr
  | broken e => trivial

theorem inPlace_bind (hr : InPlace r) (hleaves : Leaves r) (hf : ∀ a, InPlace (f a)) :
    InPlace (r >>= f) := fun stop ts hts => tells_bind (hr stop ts hts) fun a rest h =>
  have hrest := suffix_of_read hleaves h
  (hf a stop rest (hts.of_suffix hrest)).of_suffix hrest

/-- Behind a token too, the second rule may be any that tells of places. -/
theorem inPlaceAfter_bind (hr : InPlaceAfter t r) (hleaves : Leaves r) (hf : ∀ a, InPlace (f a)) :
    InPlaceAfter t (r >>= f) := fun stop ts hts hle => tells_bind (hr stop ts hts hle) fun a rest h =>
  have hrest := suffix_of_read hleaves h
  ((hf a stop rest (hts.of_suffix hrest)).of_suffix hrest).mono (List.subset_cons_self t _)

theorem inPlace_peek_bind {f : Token → Rule β} (h : ∀ t, InPlaceAt t (f t)) :
    InPlace (peek >>= f) := fun stop ts hts => h _ stop ts hts rfl

/-- After the next token is taken, the rule may tell of it. -/
theorem inPlaceAt_skip_bind {f : Unit → Rule β} (h : InPlaceAfter t (f ())) :
    InPlaceAt t (skip >>= f) := by
  intro stop ts hts ht
  obtain ⟨hmem, hle⟩ := next_mem_and_le hts ht
  have htail : ts.tail ++ [stop] ⊆ ts ++ [stop] :=
    fun u hu => List.mem_append.mpr ((List.mem_append.mp hu).imp_left List.mem_of_mem_tail)
  exact (h stop ts.tail (hts.of_suffix (List.tail_suffix ts)) fun u hu => hle u (htail hu)).mono
    (List.cons_subset.mpr ⟨hmem, htail⟩)

/-- A rule that takes a token of a kind, and then goes on. -/
theorem inPlace_expectWhere_bind {test : TokenKind → Bool} {problem : SyntaxProblem}
    {f : Token → Rule β} (h : ∀ t, InPlaceAfter t (f t)) :
    InPlace (expectWhere test problem >>= f) := by
  have heq : (expectWhere test problem >>= f) =
      (peek >>= fun t => if test t.kind then skip >>= fun _ => f t else fail problem t) := by
    funext stop ts
    unfold expectWhere
    dsimp only [bind, Rule.bind, peek]
    by_cases htest : test (ts.head?.getD stop).kind = true
    · rw [if_pos htest, if_pos htest]
      rfl
    · rw [if_neg htest, if_neg htest]
      rfl
  rw [heq]
  exact inPlace_peek_bind fun t =>
    inPlaceAt_ite (inPlaceAt_skip_bind (h t)) (inPlaceAt_fail problem t)

theorem inPlace_expect_bind {kind : TokenKind} {problem : SyntaxProblem} {f : Token → Rule β}
    (h : ∀ t, InPlace (f t)) : InPlace (expect kind problem >>= f) :=
  inPlace_expectWhere_bind fun t => (h t).after

theorem inPlace_ofNumeral (r : Except NumeralFault α) : InPlace (ofNumeral r) := fun _ _ _ => by
  unfold ofNumeral
  cases r <;> trivial

end Rule

namespace Reading

open Rule Token

/-! ### Rules -/

/-- What is wrong with the value of a default is told of in place. -/
theorem inPlace_defaultValue : InPlace defaultValue := by
  refine inPlace_peek_bind fun t => inPlaceAt_ite ?_ (inPlaceAt_ite ?_ (inPlaceAt_ite ?_ ?_))
  · exact inPlaceAt_skip_bind (inPlace_bind (inPlace_ofNumeral _) (leaves_ofNumeral _)
      fun _ => inPlace_pure _).after
  · exact inPlaceAt_skip_bind (inPlace_pure _).after
  · exact inPlaceAt_skip_bind (inPlace_pure _).after
  · split
    · exact inPlaceAt_skip_bind (inPlace_expect_bind fun _ => inPlace_expect_bind
        fun _ => inPlace_pure _).after
    · exact inPlaceAt_fail _ t

theorem inPlace_defaultArgument : InPlace defaultArgument :=
  inPlace_expect_bind fun _ => inPlace_bind inPlace_defaultValue leaves_defaultValue
    fun _ => inPlace_expect_bind fun _ => inPlace_pure _

/-- What is wrong with a relation's key is told of in place. -/
theorem inPlace_relationKey : InPlace relationKey :=
  inPlace_peek_bind fun _ => inPlaceAt_ite
    (inPlaceAt_skip_bind (inPlace_expectWhere_bind fun _ =>
      (inPlace_expect_bind fun _ => inPlace_pure _).after).after)
    (inPlace_pure _).at

/-- What is wrong with a decorator is told of at its name, or behind it. -/
theorem inPlaceAfter_decoratorNamed (t : Token) : InPlaceAfter t (decoratorNamed t) := by
  unfold decoratorNamed
  split
  · exact (inPlace_bind inPlace_relationKey leaves_relationKey fun _ => inPlace_pure _).after
  · exact inPlaceAfter_ite (inPlace_pure _).after (inPlaceAfter_ite (inPlace_pure _).after
      (inPlaceAfter_ite (inPlace_pure _).after (inPlaceAfter_ite
        (inPlace_bind inPlace_defaultArgument leaves_defaultArgument fun _ => inPlace_pure _).after
        (inPlaceAfter_fail _ t))))

/-- So it is with the sign in front. -/
theorem inPlace_decorator (seen : List String) : InPlace (decorator seen) :=
  inPlace_expectWhere_bind fun t => inPlaceAfter_ite (inPlaceAfter_fail _ t)
    (inPlaceAfter_bind (inPlaceAfter_decoratorNamed t) (leaves_decoratorNamed t)
      fun _ => inPlace_pure _)

/-- What is wrong with the decorators of a field is told of in place. -/
theorem inPlace_decorators (seen : List String) : InPlace (decorators seen) := by
  intro stop ts hts
  fun_induction decorators seen stop ts with
  | case1 | case2 | case4 | case6 | case7 => trivial
  | case3 seen t ts signed key d mid hd _ e rest hds ih =>
      have hmid := leaves_decorator seen stop ts
      rw [hd] at hmid
      have hmid : mid <:+ t :: ts := List.IsSuffix.trans hmid (List.suffix_cons t ts)
      rw [hds] at ih
      have h := (ih (hts.of_suffix hmid)).of_suffix hmid
      exact h
  | case5 seen t ts signed e rest hd =>
      have h := inPlace_decorator seen stop ts hts.tail
      rw [hd] at h
      exact h.of_suffix (List.suffix_cons t ts)

/-! ### Fields and blocks -/

theorem inPlace_arrayMark : InPlace arrayMark := fun _ ts _ => by
  unfold arrayMark
  split
  · split <;> trivial
  · trivial

/-- What is wrong with a raw block is told of at a place in it. -/
theorem inPlace_shape (isArray : Bool) : InPlace (shape isArray) := by
  intro stop ts hts
  cases ts with
  | nil =>
      show Tells _ stop ((if stop.kind = .rawObject then _ else fail .expectedShape stop : Rule Shape)
        stop [])
      rw [if_neg (by simp [hts.stopped])]
      exact inPlaceAt_fail _ stop stop [] hts rfl
  | cons t ts =>
      unfold shape
      rw [peek_bind_cons]
      split
      next kind =>
          rw [skip_bind_cons]
          cases he : Shape.ofText t.text t.position isArray with
          | ok s => trivial
          | error e =>
              obtain ⟨n, hn, hposition⟩ := Shape.place_of_ofText he
              have hholds : t.Holds e.position := .inr ⟨kind, n, hn, hposition⟩
              exact ⟨⟨t, List.mem_cons_self, hholds⟩,
                fun u hu => hholds.le_of_precedes (hts.precedes hu)⟩
      next => exact inPlaceAt_fail _ t stop (t :: ts) hts rfl

/-- What is wrong with a type is told of in place, a shape being one token. -/
theorem inPlace_plainType : InPlace plainType :=
  inPlace_peek_bind fun t => inPlaceAt_ite
    (inPlaceAt_skip_bind (inPlace_pure _).after)
    (inPlaceAt_ite
      (inPlaceAt_skip_bind (inPlace_bind inPlace_arrayMark leaves_arrayMark fun _ =>
        inPlace_bind (inPlace_shape _) (leaves_shape _) fun _ => inPlace_pure _).after)
      (inPlaceAt_fail _ t))

theorem inPlace_fieldNamed (name : Token) : InPlace (fieldNamed name) :=
  inPlace_bind inPlace_plainType leaves_plainType fun _ =>
    inPlace_bind inPlace_arrayMark leaves_arrayMark fun _ =>
      inPlace_bind (inPlace_decorators []) (leaves_decorators []) fun _ => inPlace_pure _

/-- What is wrong with the names of a `@@unique` block is told of in place. -/
theorem inPlace_uniqueMembers : InPlace uniqueMembers := by
  intro stop ts hts
  fun_induction uniqueMembers stop ts with
  | case1 => exact inPlaceAt_fail .expectedUniqueMember stop stop [] hts rfl
  | case2 t named =>
      have h : (fail .expectedUniqueSeparator stop stop [] : Reading (List String)).Tells _ stop :=
        inPlaceAt_fail _ stop stop [] hts.tail rfl
      exact h.of_suffix (List.suffix_cons t [])
  | case3 | case5 | case6 => trivial
  | case4 t named u us comma e rest heq ih =>
      have hus : us <:+ t :: u :: us := (List.suffix_cons u us).trans (List.suffix_cons t _)
      rw [heq] at ih
      exact (ih (hts.of_suffix hus)).of_suffix hus
  | case7 t named u us =>
      have h : (fail .expectedUniqueSeparator u stop (u :: us) : Reading (List String)).Tells _ stop :=
        inPlaceAt_fail _ u stop (u :: us) hts.tail rfl
      exact h.of_suffix (List.suffix_cons t _)
  | case8 t ts => exact inPlaceAt_fail .expectedUniqueMember t stop (t :: ts) hts rfl

theorem inPlace_unique : InPlace Reading.unique :=
  inPlace_expect_bind fun _ => inPlace_expect_bind fun _ =>
    inPlace_bind inPlace_uniqueMembers leaves_uniqueMembers fun _ =>
      inPlace_expect_bind fun _ => inPlace_pure _

/-! ### Models -/

section

variable {α : Type} {n : Noted α} {name : String} {stop t : Token} {ts us given : List Token}

/-- The tokens that a reading leaves. -/
def left : Reading α → List Token
  | .read _ rest => rest
  | .fault _ rest => rest
  | .broken _ => []

/-- What is left, if anything is, is an end of the tokens. -/
theorem left_suffix {r : Reading α} (h : r.IsLastOf ts) : r.left <:+ ts := by
  cases r with
  | read | fault => exact h
  | broken => exact List.nil_suffix

/-- The fault that ends a reading, if one does. -/
def fault? : Reading α → Option SyntaxFault
  | .fault e _ => some e
  | _ => none

/-- All that was found wrong: what was noted, and what ended the reading. -/
def Noted.found (n : Noted α) : List SyntaxFault := n.faults ++ n.reading.fault?.toList

/-- What was found wrong is told of in order, at places in the given tokens; what was noted comes
before all the tokens that are left. -/
structure Noted.InPlace (n : Noted α) (given : List Token) (stop : Token) : Prop where
  tells : n.reading.Tells given stop
  held : ∀ e ∈ n.faults, ∃ t ∈ given, t.Holds e.position
  before : ∀ e ∈ n.faults, ∀ u ∈ n.reading.left ++ [stop], e.position < u.position
  ordered : n.found.Pairwise fun e e' => e.position < e'.position

/-- What is in place among some of the tokens is so among all of them. -/
theorem Noted.InPlace.mono (h : n.InPlace given stop) (hsub : given ⊆ ts) : n.InPlace ts stop where
  tells := h.tells.mono hsub
  held e he := (h.held e he).imp fun _ ht => ht.imp_left (hsub ·)
  before := h.before
  ordered := h.ordered

theorem Noted.InPlace.of_suffix (h : n.InPlace (us ++ [stop]) stop) (hus : us <:+ ts) :
    n.InPlace (ts ++ [stop]) stop :=
  h.mono fun _ hu => List.mem_append.mpr ((List.mem_append.mp hu).imp_left (hus.subset ·))

/-- Everything that was found is told of at a place in the given tokens, and no token that is left
begins before it. -/
theorem Noted.InPlace.of_mem_found (h : n.InPlace given stop) {e : SyntaxFault} (he : e ∈ n.found) :
    (∃ t ∈ given, t.Holds e.position) ∧ ∀ u ∈ n.reading.left ++ [stop], e.position ≤ u.position := by
  rcases List.mem_append.mp he with he | he
  · exact ⟨h.held e he, fun u hu => (h.before e he u hu).le⟩
  · have htells := h.tells
    cases hreading : n.reading with
    | read a rest => rw [hreading] at he; cases he
    | fault e' rest =>
        rw [hreading] at he htells
        obtain rfl := List.mem_singleton.mp he
        exact htells
    | broken e' => rw [hreading] at he; cases he

/-- Without notes there is only the fault that ends a reading. -/
theorem inPlace_of_tells {r : Reading α} (h : r.Tells given stop) :
    (Noted.mk [] r).InPlace given stop where
  tells := h
  held := nofun
  before := nofun
  ordered := by cases r <;> simp [Noted.found, fault?]

/-- A member that is taken changes nothing about the places. -/
theorem Noted.InPlace.cons {n : Noted (List Member)} (h : n.InPlace given stop) (m : Member) :
    (n.cons m).InPlace given stop := by
  obtain ⟨faults, reading⟩ := n
  cases reading with
  | read ms rest => exact ⟨trivial, h.held, h.before, h.ordered⟩
  | fault e rest => exact h
  | broken e => exact h

/-- A note on a token comes before all that is found in the tokens after it. -/
theorem Noted.InPlace.after (h : n.InPlace (ts ++ [stop]) stop) (hts : InOrder stop (t :: ts))
    (hleft : n.reading.left <:+ ts) (problem : SyntaxProblem) :
    (n.after ⟨problem, t.position⟩).InPlace (t :: ts ++ [stop]) stop where
  tells := h.tells.of_suffix (List.suffix_cons t ts)
  held := List.forall_mem_cons.mpr ⟨⟨t, List.mem_cons_self, t.holds_self⟩, fun e he =>
    (h.held e he).imp fun _ hu => hu.imp_left (List.mem_cons_of_mem t)⟩
  before := List.forall_mem_cons.mpr ⟨fun _ hu => (hts.precedes (List.mem_append.mpr
    ((List.mem_append.mp hu).imp_left (hleft.subset ·)))).begins, h.before⟩
  ordered := List.pairwise_cons.mpr ⟨fun _ he => by
    obtain ⟨u, hu, hholds⟩ := (h.of_mem_found he).1
    exact (hts.precedes hu).begins.trans_le hholds.le, h.ordered⟩

/-- **What is wrong among the members** of a model is told of in order. -/
theorem inPlace_members (hts : InOrder stop ts) :
    (members name stop ts).InPlace (ts ++ [stop]) stop := by
  have hleft := fun ts => left_suffix (@members_isLastOf name stop ts)
  fun_induction members name stop ts with
  | case1 => exact inPlace_of_tells (inPlaceAt_fail _ stop stop [] hts rfl)
  | case2 | case5 | case8 => exact inPlace_of_tells trivial
  | case3 t ts _ named f rest hf _ ih =>
      have hrest : rest <:+ t :: ts :=
        (suffix_of_read (leaves_fieldNamed t) hf).trans (List.suffix_cons t ts)
      exact ((ih (hts.of_suffix hrest)).cons _).of_suffix hrest
  | case4 t ts _ named e rest hf =>
      have h := inPlace_fieldNamed t stop ts hts.tail
      rw [hf] at h
      exact inPlace_of_tells (h.of_suffix (List.suffix_cons t ts))
  | case6 t ts _ _ _ _ names rest hu _ ih =>
      have hrest : rest <:+ t :: ts :=
        (suffix_of_read leaves_unique hu).trans (List.suffix_cons t ts)
      exact ((ih (hts.of_suffix hrest)).cons _).of_suffix hrest
  | case7 t ts _ _ _ _ e rest hu =>
      have h := inPlace_unique stop ts hts.tail
      rw [hu] at h
      exact inPlace_of_tells (h.of_suffix (List.suffix_cons t ts))
  | case9 t ts _ _ _ _ _ ih =>
      have hrest := afterArguments_suffix ts
      exact ((ih (hts.tail.of_suffix hrest)).of_suffix hrest).after hts ((hleft _).trans hrest) _
  | case10 t ts => exact inPlace_of_tells (inPlaceAt_fail _ t stop (t :: ts) hts rfl)
  | case11 t ts _ _ _ _ _ ih => exact (ih hts.tail).after hts (hleft ts) _

/-- What is wrong with a model is found after its first token. -/
theorem inPlace_model_of_kind (hts : InOrder stop (t :: ts)) (h : t.kind = .model) :
    (model stop (t :: ts)).InPlace (ts ++ [stop]) stop := by
  have hhead : (modelHead stop (t :: ts)).Tells (ts ++ [stop]) stop ∧
      (modelHead stop (t :: ts)).IsLastOf ts := by
    unfold modelHead
    rw [expect_bind_cons h]
    exact ⟨inPlace_expect_bind (fun _ => inPlace_expect_bind fun _ => inPlace_pure _) stop ts
        hts.tail,
      leaves_bind (leaves_expect _ _) (fun _ => leaves_bind (leaves_expect _ _)
        fun _ => leaves_pure _) stop ts⟩
  unfold model
  cases hread : modelHead stop (t :: ts) with
  | read head rest =>
      rw [hread] at hhead
      have hrest : rest <:+ ts := hhead.2
      have hmembers : (members head.2.text stop rest).InPlace (ts ++ [stop]) stop :=
        (inPlace_members (hts.tail.of_suffix hrest)).of_suffix hrest
      dsimp only
      cases hms : members head.2.text stop rest with
      | mk faults reading =>
          rw [hms] at hmembers
          cases reading with
          | read ms left => exact ⟨trivial, hmembers.held, hmembers.before, hmembers.ordered⟩
          | fault e left => exact ⟨hmembers.tells, hmembers.held, hmembers.before, hmembers.ordered⟩
          | broken e => exact ⟨trivial, hmembers.held, hmembers.before, hmembers.ordered⟩
  | fault e rest =>
      rw [hread] at hhead
      exact inPlace_of_tells hhead.1
  | broken e => exact inPlace_of_tells trivial

/-- **What is wrong with a model** is told of in order. -/
theorem inPlace_model (hts : InOrder stop (t :: ts)) :
    (model stop (t :: ts)).InPlace (t :: ts ++ [stop]) stop := by
  by_cases h : t.kind = .model
  · exact (inPlace_model_of_kind hts h).of_suffix (List.suffix_cons t ts)
  · rw [model_of_ne h]
    exact inPlace_of_tells (inPlaceAt_fail _ t stop (t :: ts) hts rfl)

/-- Reading goes on at the next model, if there is one. -/
theorem synchronize_cases (ts : List Token) :
    synchronize ts = [] ∨ ∃ u us, synchronize ts = u :: us ∧ u.kind = .model := by
  cases h : synchronize ts with
  | nil => exact .inl rfl
  | cons u us =>
      have hhead := List.head?_dropWhile_not (fun t : Token => t.kind != .model) ts
      rw [show ts.dropWhile (fun t : Token => t.kind != .model) = u :: us from h] at hhead
      exact .inr ⟨u, us, rfl, by simpa using hhead⟩

/-- Faults are told of in order at places in the tokens, and behind the first of them if that
begins a model. -/
structure FaultsInPlace (stop : Token) (ts : List Token) (faults : List SyntaxFault) : Prop where
  held : ∀ e ∈ faults, ∃ t ∈ ts ++ [stop], t.Holds e.position
  ordered : faults.Pairwise fun e e' => e.position < e'.position
  behind : ∀ t us, ts = t :: us → t.kind = .model → ∀ e ∈ faults, t.position < e.position

/-- What is found in a model comes before what is found behind it. -/
theorem FaultsInPlace.append {later : List SyntaxFault} {rest : List Token}
    (hts : InOrder stop (t :: ts)) (hrest : rest <:+ t :: ts)
    (hbehind : t.kind = .model → rest <:+ ts) (h : FaultsInPlace stop rest later)
    (hlater : ∀ e ∈ (model stop (t :: ts)).found, ∀ e' ∈ later, e.position < e'.position) :
    FaultsInPlace stop (t :: ts) ((model stop (t :: ts)).found ++ later) where
  held e he := by
    rcases List.mem_append.mp he with he | he
    · exact ((inPlace_model hts).of_mem_found he).1
    · obtain ⟨u, hu, hholds⟩ := h.held e he
      exact ⟨u, List.mem_append.mpr ((List.mem_append.mp hu).imp_left (hrest.subset ·)), hholds⟩
  ordered := List.pairwise_append.mpr ⟨(inPlace_model hts).ordered, h.ordered, hlater⟩
  behind t' us heq hkind e he := by
    cases heq
    have hheld : ∃ u ∈ ts ++ [stop], u.Holds e.position := by
      rcases List.mem_append.mp he with he | he
      · exact ((inPlace_model_of_kind hts hkind).of_mem_found he).1
      · obtain ⟨u, hu, hholds⟩ := h.held e he
        exact ⟨u, List.mem_append.mpr ((List.mem_append.mp hu).imp_left
          ((hbehind hkind).subset ·)), hholds⟩
    obtain ⟨u, hu, hholds⟩ := hheld
    exact (hts.precedes hu).begins.trans_le hholds.le

/-- **What is wrong with models** is told of in order. -/
theorem models_inPlace {found : List Model} {faults : List SyntaxFault} (hts : InOrder stop ts)
    (h : Reading.models stop ts = .ok (found, faults)) : FaultsInPlace stop ts faults := by
  induction hn : ts.length using Nat.strong_induction_on generalizing ts found faults with
  | _ n ih =>
      cases ts with
      | nil =>
          rw [Reading.models] at h
          cases h
          exact ⟨List.forall_mem_nil _, .nil, fun _ _ _ _ => List.forall_mem_nil _⟩
      | cons t ts =>
          have hin := inPlace_model hts
          have hlast : (model stop (t :: ts)).reading.IsLastOf (t :: ts) := model_isLastOf_cons
          have hlast' : t.kind = .model → (model stop (t :: ts)).reading.IsLastOf ts :=
            model_isLastOf
          cases hmodel : model stop (t :: ts) with
          | mk noted reading =>
              rw [hmodel] at hin hlast hlast'
              cases reading with
              | read m rest =>
                  rw [models_of_read hmodel] at h
                  obtain ⟨⟨found', later⟩, hlater, heq⟩ := Except.map_eq_ok_iff.mp h
                  cases heq
                  have hrest := ih _ (hn ▸ length_lt_of_model hmodel) (hts.of_suffix hlast) hlater rfl
                  have hfound : (Noted.mk noted (.read m rest)).found = noted := List.append_nil noted
                  have hall := FaultsInPlace.append hts hlast hlast' hrest fun e he e' he' => by
                    rw [hmodel, hfound] at he
                    obtain ⟨u, hu, hholds⟩ := hrest.held e' he'
                    exact (hin.before e he u hu).trans_le hholds.le
                  rwa [hmodel, hfound] at hall
              | fault e rest =>
                  rw [models_of_fault hmodel] at h
                  obtain ⟨⟨found', later⟩, hlater, heq⟩ := Except.map_eq_ok_iff.mp h
                  cases heq
                  have hsync := synchronize_suffix rest
                  have hrest := ih _ (hn ▸ length_synchronize_lt hmodel)
                    (hts.of_suffix (hsync.trans hlast)) hlater rfl
                  have hall := FaultsInPlace.append hts (hsync.trans hlast)
                    (fun hkind => hsync.trans (hlast' hkind)) hrest fun e he e' he' => by
                      rw [hmodel] at he
                      rcases synchronize_cases rest with hnil | ⟨u, us, hcons, hkind⟩
                      · rw [hnil, Reading.models] at hlater
                        cases hlater
                        cases he'
                      · have hu : u ∈ rest := hsync.subset (hcons ▸ List.mem_cons_self)
                        exact ((hin.of_mem_found he).2 u (List.mem_append_left _ hu)).trans_lt
                          (hrest.behind u us hcons hkind e' he')
                  rw [hmodel] at hall
                  exact hall
              | broken e =>
                  rw [models_of_broken (by rw [hmodel])] at h
                  cases h

end

end Reading

/-- **Faults stand in the order of the source, one at a place.**  If a source is compiled, what is
wrong with its syntax, inside of raw blocks too, is told of at places each of which comes before the
next; each is the place of a character of the source, or its end. -/
theorem compile_faults_inPlace (source : String) (strict : Bool) (c : Compilation)
    (h : (compile source strict).outcome = .ok c) :
    (c.syntaxFaults.map SyntaxFault.position).Pairwise Position.Before ∧
      ∀ e ∈ c.syntaxFaults, ∃ n ≤ source.toList.length,
        e.position = .ofOffset source.toList n ∧ .start ≤ e.position ∧
          e.position ≤ Position.start.after source.toList := by
  obtain ⟨body, stop, htokens, hrow, hbody, hplaces⟩ := Token.inOrder_scan source
  rw [compile_eq, htokens, Schema.ofTokens_append hbody hrow.stopped] at h
  cases hmodels : Reading.models stop body with
  | error e => rw [hmodels] at h; cases h
  | ok r =>
      obtain ⟨models, faults⟩ := r
      rw [hmodels] at h
      cases h
      have hfaults := Reading.models_inPlace hrow hmodels
      refine ⟨List.pairwise_map.mpr (hfaults.ordered.imp Position.lt_iff_before.mp), fun e he => ?_⟩
      obtain ⟨t, ht, hholds⟩ := hfaults.held e he
      obtain ⟨n, hn, hposition⟩ := hplaces t ht _ hholds
      refine ⟨n, hn, hposition, ?_, ?_⟩
      · rw [hposition, Position.ofOffset_eq_after]
        exact Position.le_after _ _
      · rw [hposition, Position.after_start]
        exact Position.ofOffset_le hn

/-- A key without a type in a raw block, a sign that is no member, and a model without a name. -/
def faultySource : String :=
  "model a \x7b b json \x7b c \x7d \x7d\nmodel d \x7b , e int \x7d\nmodel"

/-- Three faults in one source are told of in their order. -/
theorem compile_faultySource :
    ∃ c, (compile faultySource true).outcome = .ok c ∧
      c.syntaxFaults.map SyntaxFault.position = [⟨1, 22⟩, ⟨2, 11⟩, ⟨3, 6⟩] ∧
      (c.syntaxFaults.map SyntaxFault.position).Pairwise Position.Before := by
  let field : Field := { name := "e", typeName := "int", position := ⟨2, 13⟩ }
  have hread : Schema.ofTokens (Token.scan faultySource).tokens = .ok
      ⟨some ⟨[{ name := "d", fields := [field], position := ⟨2, 1⟩ }]⟩,
        [⟨.shape (.expectedSign ':'), ⟨1, 22⟩⟩, ⟨.strayMember ",", ⟨2, 11⟩⟩,
          ⟨.expectedModelName, ⟨3, 6⟩⟩]⟩ := by
    with_unfolding_all rfl
  have hc := compile_eq faultySource true
  rw [hread] at hc
  exact ⟨_, hc, rfl, (compile_faults_inPlace _ _ _ hc).1⟩

end Schemata
