import Schemata.Proofs.Schema.Walks

/-!
# Proofs — schemas — progress

The reader makes progress with each round and never runs past the end.  Each routine of the walk
follows its rule, from the decorators up to the models of a schema.  A loop that collects what it
reads is compared with the rule that reads what is left (`decoratorsFrom`, `namesFrom`,
`Reading.Noted.prepend`, `modelsFrom`), by induction on the number of tokens that are left.

* `Walk.follows_membersFrom` — the loop over the members of a model, one lemma for each kind of
  token that it may come to.
* `Walk.oneModel_cases`, `Walk.follows_modelRound` — whatever comes next, a round over models leaves
  fewer tokens, so that the cursor has been moved and no token is dropped.
* `Walk.run_progresses` — a walk along any tokens ends, with the answer of the reader.  It makes at
  most one step from each token before the first end of the input, and each round moves the cursor.
-/

namespace Schemata

open Reading

/-- Members that were read earlier are put before those of a reading. -/
def Reading.Noted.prepend (ms : List Member) (n : Noted (List Member)) : Noted (List Member) :=
  match n.reading with
  | .read ms' rest => ⟨n.faults, .read (ms ++ ms') rest⟩
  | .fault e rest => ⟨n.faults, .fault e rest⟩
  | .broken e => ⟨n.faults, .broken e⟩

theorem Reading.Noted.prepend_nil (n : Noted (List Member)) : n.prepend [] = n := by
  obtain ⟨faults, reading⟩ := n
  cases reading <;> rfl

/-- A member is put behind those that were read already. -/
theorem Reading.Noted.prepend_cons (ms : List Member) (m : Member) (n : Noted (List Member)) :
    (n.cons m).prepend ms = n.prepend (ms ++ [m]) := by
  obtain ⟨faults, reading⟩ := n
  cases reading with
  | read ms' rest => simp [prepend, Noted.cons]
  | fault e rest => rfl
  | broken e => rfl

theorem Reading.Noted.prepend_after (ms : List Member) (e : SyntaxFault)
    (n : Noted (List Member)) : (n.after e).prepend ms = (n.prepend ms).behind [e] := by
  obtain ⟨faults, reading⟩ := n
  cases reading <;> rfl

namespace Walk

variable {α β σ : Type} {row : Row} {t : Token} {ts rest : List Token} {es : List SyntaxFault}
  {x : Walk α} {f : α → Walk β} {n : Noted α} {r : Rule α} {g : α → Rule β}

section

variable (hend : row.last.kind = .endOfInput)

include hend

/-! ### Decorators -/

/-- To walk over the value of a default obeys the rule for it. -/
theorem obeys_defaultValue : Obeys row defaultValue Reading.defaultValue := by
  refine obeys_peek_bind fun ts => follows_ite (fun hkind => ?_) fun _ =>
    follows_ite (fun hkind => ?_) fun _ => follows_ite (fun hkind => ?_) fun _ => ?_
  · cases ts with
    | nil => cases hkind.symm.trans (Row.kind_stop hend)
    | cons t ts => exact follows_ofNumeral_bind fun _ => obeys_pure _
  · exact follows_skip_bind hend (by simp [hkind]) (follows_pure _)
  · exact follows_skip_bind hend (by simp [hkind]) (follows_pure _)
  · by_cases hkind : (row.next ts).kind = .identifier
    · rw [if_pos hkind]
      cases Generator.ofName? (row.next ts).text with
      | some g =>
          rw [hkind]
          exact follows_skip_bind hend (by simp [hkind])
            (obeys_bind (obeys_expect hend _ (by decide)) (fun _ =>
              obeys_bind (obeys_expect hend _ (by decide)) fun _ => obeys_pure _) _)
      | none =>
          rw [hkind]
          exact follows_fail _ _
    · rw [if_neg hkind]
      split
      next g hident _ => exact absurd hident hkind
      next => exact follows_fail _ _

theorem obeys_defaultArgument : Obeys row defaultArgument Reading.defaultArgument :=
  obeys_bind (obeys_expect hend _ (by decide)) fun _ =>
    obeys_bind (obeys_defaultValue hend) fun _ =>
      obeys_bind (obeys_expect hend _ (by decide)) fun _ => obeys_pure _

theorem obeys_relationKey : Obeys row relationKey Reading.relationKey :=
  obeys_peek_bind fun _ => follows_ite
    (fun hkind => follows_skip_bind hend (by simp [hkind])
      (obeys_bind (obeys_expectName hend _) (fun _ =>
        obeys_bind (obeys_expect hend _ (by decide)) fun _ => obeys_pure _) _))
    fun _ => follows_pure _

/-- To walk over what a decorator says obeys the rule for it. -/
theorem obeys_decoratorNamed (t : Token) :
    Obeys row (decoratorNamed t) (Reading.decoratorNamed t) := by
  unfold decoratorNamed Reading.decoratorNamed
  cases RelationKind.ofName? t.text with
  | some kind => exact obeys_bind (obeys_relationKey hend) fun _ => obeys_pure _
  | none =>
      exact obeys_ite (obeys_pure _) (obeys_ite (obeys_pure _) (obeys_ite (obeys_pure _)
        (obeys_ite (obeys_bind (obeys_defaultArgument hend) fun _ => obeys_pure _)
          (obeys_fail _ _))))

theorem obeys_decorator (seen : List String) :
    Obeys row (decorator seen) (Reading.decorator seen) :=
  obeys_bind (obeys_expect hend _ (by decide)) fun t => obeys_ite (obeys_fail _ _)
    (obeys_bind (obeys_decoratorNamed hend t) fun _ => obeys_pure _)

/-- The decorators that come next, behind those that were read already. -/
def decoratorsFrom (s : List String × List Decorator) : Rule (List Decorator) := fun stop ts =>
  match Reading.decorators s.1 stop ts with
  | .read ds rest => .read (s.2 ++ ds) rest
  | .fault e rest => .fault e rest
  | .broken e => .broken e

omit hend in
theorem decoratorsFrom_nil : decoratorsFrom ([], []) = Reading.decorators [] := by
  funext stop ts
  unfold decoratorsFrom
  cases Reading.decorators [] stop ts <;> rfl

omit hend in
/-- Where no sign comes next there are no more decorators. -/
theorem decoratorsFrom_end {s : List String × List Decorator}
    (h : (row.next ts).kind ≠ .atSign) : decoratorsFrom s row.stop ts = .read s.2 ts := by
  have hread : Reading.decorators s.1 row.stop ts = .read [] ts := by
    cases ts with
    | nil => rw [Reading.decorators]
    | cons t ts => rw [Reading.decorators, if_neg (show t.kind ≠ .atSign from h)]
  rw [decoratorsFrom, hread]
  exact congrArg (Reading.read · ts) (List.append_nil s.2)

/-- What a round over decorators reads behind the sign. -/
def oneDecorator (s : List String × List Decorator) :
    Rule (ForInStep (List String × List Decorator)) := do
  let a ← Reading.decorator s.1
  pure (.yield (a.1 :: s.1, s.2 ++ [a.2]))

/-- What is read behind such a round. -/
def decoratorsAfter : ForInStep (List String × List Decorator) → Rule (List Decorator)
  | .yield s => decoratorsFrom s
  | .done s => pure s.2

omit hend in
/-- Behind a sign one decorator is read, and then those behind it. -/
theorem decoratorsFrom_cons {s : List String × List Decorator} (h : t.kind = .atSign) :
    decoratorsFrom s row.stop (t :: ts) = (oneDecorator s >>= decoratorsAfter) row.stop ts := by
  unfold oneDecorator
  rw [decoratorsFrom, decorators_cons h, bind_assoc]
  cases hread : Reading.decorator s.1 row.stop ts with
  | read a rest =>
      obtain ⟨key, d⟩ := a
      rw [Rule.bind_of_read hread, Rule.bind_of_read hread, pure_bind]
      show _ = decoratorsFrom (key :: s.1, s.2 ++ [d]) row.stop rest
      unfold decoratorsFrom
      dsimp only
      cases hds : Reading.decorators (key :: s.1) row.stop rest with
      | read ds rest' =>
          rw [Rule.bind_of_read hds]
          show Reading.read (s.2 ++ d :: ds) rest' = .read (s.2 ++ [d] ++ ds) rest'
          rw [List.append_assoc]
          rfl
      | fault e rest' => rw [Rule.bind_of_fault hds]
      | broken e => rw [Rule.bind_of_broken hds]
  | fault e rest => rw [Rule.bind_of_fault hread, Rule.bind_of_fault hread]
  | broken e => rw [Rule.bind_of_broken hread, Rule.bind_of_broken hread]

/-- The loop over decorators reads what comes next. -/
theorem follows_decorators (s : List String × List Decorator) (ts : List Token) :
    Follows row ts (loop .decorators (· == .atSign) decoratorRound s >>= fun s => pure s.2)
      ((decoratorsFrom s).noted row ts) := by
  induction hn : ts.length using Nat.strong_induction_on generalizing ts s with
  | _ n ih =>
      by_cases hsigned : (row.next ts).kind = .atSign
      · cases ts with
        | nil => cases hsigned.symm.trans (Row.kind_stop hend)
        | cons t ts =>
            -- The sign is taken first, the rule is read off the tokens behind it.
            have hround :
                Follows row (t :: ts) (decoratorRound s) ((oneDecorator s).noted row ts) :=
              follows_advance_bind (follows_bind (obeys_decorator hend s.1 ts) fun _ =>
                obeys_pure _)
            have hshrinks : Rule.Shrinks (oneDecorator s) :=
              Rule.shrinks_bind (shrinks_decorator s.1) fun _ => Rule.shrinks_pure _
            unfold Rule.noted
            rw [decoratorsFrom_cons (show t.kind = .atSign from hsigned)]
            exact follows_loop_rule (by decide) (beq_iff_eq.mpr hsigned) hround
              (fun s' rest hread => Nat.lt_succ_of_le (hshrinks _ _ _ _ hread))
              (fun s' rest hlt => ih _ (hn ▸ hlt) s' rest rfl) fun _ => obeys_pure _
      · refine follows_loop_end (beq_eq_false_iff_ne.mpr hsigned) ?_
        unfold Rule.noted
        rw [decoratorsFrom_end hsigned]
        exact follows_pure _

theorem obeys_decorators : Obeys row decorators (Reading.decorators []) := fun ts =>
  decoratorsFrom_nil ▸ follows_decorators hend ([], []) ts

/-! ### Fields -/

/-- To walk over an array mark obeys the rule for it. -/
theorem obeys_arrayMark : Obeys row arrayMark Reading.arrayMark := by
  refine fun ts => follows_next_bind ?_
  have hstop : row.stop.kind = .endOfInput := Row.kind_stop hend
  cases ts with
  | nil =>
      -- Nothing is known of what stands behind the end, and it does not matter.
      intro c hc
      have hlook : lookAt 1 row c = Part.some (.ok (row.token (c.place + 1)), c) := rfl
      rw [bind_of_ok hlook, if_neg (by simp [hstop])]
      exact ⟨c, rfl, hc.reaches⟩
  | cons t ts =>
      refine follows_lookAt_bind ?_
      cases ts with
      | nil =>
          rw [if_neg (by simp [hstop])]
          exact follows_pure _
      | cons u ts =>
          unfold Rule.noted
          rw [Row.next_cons, Row.next_cons, Reading.arrayMark]
          by_cases h : t.kind = .openBracket ∧ u.kind = .closeBracket
          · rw [if_pos h, if_pos h]
            exact follows_advance_bind (follows_advance_bind (follows_pure _))
          · rw [if_neg h, if_neg h]
            exact follows_pure _

theorem obeys_shape (isArray : Bool) : Obeys row (shape isArray) (Reading.shape isArray) := by
  refine obeys_peek_bind fun ts => follows_ite
    (fun hkind => follows_skip_bind hend (by simp [hkind]) ?_) fun _ => follows_fail _ _
  intro c hc
  unfold ofShape Rule.noted
  cases Shape.ofText (row.next ts).text (row.next ts).position isArray with
  | ok s => exact ⟨c, rfl, hc.reaches⟩
  | error e => exact ⟨c, rfl, hc.reaches⟩

/-- To walk over a type obeys the rule for it. -/
theorem obeys_plainType : Obeys row plainType Reading.plainType :=
  obeys_peek_bind fun ts => follows_ite
    (fun hkind => follows_skip_bind hend
      (by rcases hkind with h | h <;> intro he <;> rw [he] at h <;> cases h) (follows_pure _))
    fun _ => follows_ite
      (fun hkind => follows_skip_bind hend (by simp [hkind])
        (obeys_bind (obeys_arrayMark hend) (fun _ => obeys_bind (obeys_shape hend _) fun _ =>
          obeys_pure _) _))
      fun _ => follows_fail _ _

theorem follows_field (t : Token) (ts : List Token) :
    Follows row (t :: ts) field ((fieldNamed t).noted row ts) :=
  follows_advance_bind (obeys_bind (obeys_plainType hend) (fun _ =>
    obeys_bind (obeys_arrayMark hend) fun _ => obeys_bind (obeys_decorators hend) fun _ =>
      obeys_pure _) ts)

/-! ### Models -/

/-- What a round over the names of a block reads. -/
def oneName (names : List String) : Rule (ForInStep (List String)) := do
  let t ← Rule.expectName .expectedUniqueMember
  let u ← Rule.peek
  if u.kind = .comma then do
    Rule.skip
    pure (.yield (names ++ [t.text]))
  else if u.kind = .closeBracket then pure (.done (names ++ [t.text]))
  else Rule.fail .expectedUniqueSeparator u

theorem obeys_nameRound (names : List String) : Obeys row (nameRound names) (oneName names) :=
  obeys_bind (obeys_expectName hend _) fun t => obeys_peek_bind fun ts => follows_ite
    (fun hkind => follows_skip_bind hend (by simp [hkind]) (follows_pure _))
    fun _ => follows_ite (fun _ => follows_pure _) fun _ => follows_fail _ _

/-- A round that is gone on with has taken a name, at least. -/
theorem length_lt_of_oneName {names names' : List String}
    (h : oneName names row.stop ts = .read (.yield names') rest) : rest.length < ts.length := by
  obtain ⟨t, us, rfl, -, hrest⟩ := (Rule.expectName_bind_read_iff (Row.kind_stop hend)).mp h
  refine Nat.lt_succ_of_le (Rule.shrinks_bind Rule.shrinks_peek (fun _ => ?_) _ _ _ _ hrest)
  exact Rule.shrinks_ite (Rule.shrinks_bind Rule.shrinks_skip fun _ => Rule.shrinks_pure _)
    (Rule.shrinks_ite (Rule.shrinks_pure _) (Rule.shrinks_fail _ _))

/-- The names of a block up to its bracket, behind those that were read already. -/
def namesFrom (names : List String) : Rule (List String) := fun stop ts =>
  match Reading.uniqueMembers stop ts with
  | .read names' rest => .read (names ++ names') rest
  | .fault e rest => .fault e rest
  | .broken e => .broken e

omit hend in
theorem namesFrom_nil : namesFrom [] = Reading.uniqueMembers := by
  funext stop ts
  unfold namesFrom
  cases Reading.uniqueMembers stop ts <;> rfl

/-- What is read behind a round over names. -/
def namesAfter : ForInStep (List String) → Rule (List String)
  | .yield names => namesFrom names
  | .done names => do
    let _ ← Rule.expect .closeBracket .expectedUniqueSeparator
    pure names

/-- One name is read, and then those behind it. -/
theorem namesFrom_eq (names : List String) (ts : List Token) :
    namesFrom names row.stop ts =
      (oneName names >>= namesAfter) row.stop ts := by
  have hstop : row.stop.kind = .endOfInput := Row.kind_stop hend
  unfold oneName
  rw [bind_assoc, namesFrom]
  cases ts with
  | nil =>
      have hunnamed : (row.next []).kind.isName = false := by rw [Row.next_nil, hstop]; rfl
      rw [Rule.expectName, expectWhere_bind_of_not _ _ hunnamed, Reading.uniqueMembers]
      rfl
  | cons t ts =>
      by_cases hnamed : t.kind.isName
      · rw [Rule.expectName_bind_cons hnamed, bind_assoc]
        cases ts with
        | nil =>
            rw [Rule.peek_bind_nil, if_neg (by simp [hstop]), if_neg (by simp [hstop]),
              Reading.uniqueMembers, if_pos hnamed]
            rfl
        | cons u us =>
            rw [Rule.peek_bind_cons, Reading.uniqueMembers, if_pos hnamed]
            by_cases hcomma : u.kind = .comma
            · rw [if_pos hcomma, if_pos hcomma]
              show _ = namesFrom (names ++ [t.text]) row.stop us
              unfold namesFrom
              cases Reading.uniqueMembers row.stop us <;> simp
            rw [if_neg hcomma, if_neg hcomma]
            by_cases hbracket : u.kind = .closeBracket
            · rw [if_pos hbracket, if_pos hbracket]
              show _ = (Rule.expect .closeBracket .expectedUniqueSeparator >>= fun _ =>
                pure (names ++ [t.text]) : Rule (List String)) row.stop (u :: us)
              rw [Rule.expect_bind_cons hbracket]
              rfl
            · rw [if_neg hbracket, if_neg hbracket]
              rfl
      · rw [Rule.expectName, expectWhere_bind_of_not _ _ (by simpa using hnamed),
          Reading.uniqueMembers.eq_def]
        dsimp only
        rw [if_neg hnamed]
        rfl

/-- The loop over names reads those that come next, and the bracket is taken behind it. -/
theorem follows_namesFrom (names : List String) (ts : List Token) :
    Follows row ts
      (loop .uniqueMembers (fun _ => true) nameRound names >>= fun names => do
        let _ ← expect .closeBracket .expectedUniqueSeparator
        pure names)
      ((namesFrom names).noted row ts) := by
  induction hn : ts.length using Nat.strong_induction_on generalizing ts names with
  | _ n ih =>
      unfold Rule.noted
      rw [namesFrom_eq hend]
      exact follows_loop_rule (by decide) rfl (obeys_nameRound hend names ts)
        (fun _ _ hread => length_lt_of_oneName hend hread)
        (fun names' rest hlt => ih _ (hn ▸ hlt) names' rest rfl)
        fun names' => obeys_bind (obeys_expect hend _ (by decide)) fun _ => obeys_pure names'

theorem obeys_uniqueMembers : Obeys row uniqueMembers Reading.uniqueMembers := fun ts =>
  namesFrom_nil ▸ follows_namesFrom hend [] ts

theorem obeys_unique : Obeys row unique Reading.unique :=
  obeys_bind (obeys_expect hend _ (by decide)) fun _ =>
    obeys_bind (obeys_expect hend _ (by decide)) fun _ =>
      obeys_bind (obeys_uniqueMembers hend) fun _ =>
        obeys_bind (obeys_expect hend _ (by decide)) fun _ => obeys_pure _

omit hend in
/-- What a round over arguments does with one token. -/
theorem follows_argumentRound (depth : Int) (t : Token) (ts : List Token) :
    Follows row (t :: ts) (argumentRound depth)
      ⟨[], .read (if t.kind = .openParen then .yield (depth + 1)
        else if t.kind = .closeParen then if depth - 1 = 0 then .done 0 else .yield (depth - 1)
        else .yield depth) ts⟩ := by
  refine follows_advance_bind ?_
  split
  · exact follows_pure _
  split
  · split <;> exact follows_pure _
  · exact follows_pure _

/-- The arguments of a block are passed over up to the parenthesis that closes the last one. -/
theorem follows_arguments {depth : Nat} (hdepth : 0 < depth) (ts : List Token) :
    Follows row ts (loop .arguments (· != .endOfInput) argumentRound depth >>= fun _ => pure ())
      ⟨[], .read () (afterParens depth ts)⟩ := by
  induction ts generalizing depth with
  | nil =>
      exact follows_loop_end (bne_eq_false_iff_eq.mpr (Row.kind_stop hend)) (follows_pure ())
  | cons t ts ih =>
      refine follows_cons fun hkind => ?_
      have hround : Follows row (t :: ts) (argumentRound depth) _ :=
        follows_argumentRound depth t ts
      have hyield : ∀ {next : Nat}, 0 < next →
          Follows row (t :: ts) (argumentRound depth) ⟨[], .read (.yield (next : Int)) ts⟩ →
          Follows row (t :: ts)
            (loop .arguments (· != .endOfInput) argumentRound depth >>= fun _ => pure ())
            ⟨[], .read () (afterParens next ts)⟩ := fun hnext h =>
        follows_loop_next (bne_iff_ne.mpr hkind) h (Nat.lt_succ_self _) (ih hnext)
      unfold afterParens
      by_cases hopen : t.kind = .openParen
      · rw [if_pos hopen] at hround ⊢
        exact hyield (Nat.succ_pos depth) hround
      rw [if_neg hopen] at hround ⊢
      by_cases hclose : t.kind = .closeParen
      · rw [if_pos hclose] at hround ⊢
        split at hround
        next hlast =>
            rw [if_pos (by omega)]
            exact follows_loop_done (by decide) (bne_iff_ne.mpr hkind) hround (follows_pure ())
        next hmore =>
            rw [if_neg (by omega)]
            rw [show (depth : Int) - 1 = (depth - 1 : Nat) by omega] at hround
            exact hyield (by omega) hround
      · rw [if_neg hclose] at hround ⊢
        exact hyield hdepth hround

/-- To walk over arguments leaves what follows them. -/
theorem follows_skipArguments (ts : List Token) :
    Follows row ts skipArguments ⟨[], .read () (afterArguments ts)⟩ := by
  refine follows_next_bind ?_
  cases ts with
  | nil =>
      have hstop : row.stop.kind = .endOfInput := Row.kind_stop hend
      rw [if_neg (by simp [hstop])]
      exact follows_pure ()
  | cons t ts =>
      rw [afterArguments]
      by_cases hopen : t.kind = .openParen
      · rw [if_pos hopen, Row.next_cons, if_pos hopen]
        have hround : Follows row (t :: ts) (argumentRound 0) _ := follows_argumentRound 0 t ts
        rw [if_pos hopen] at hround
        have hkind : t.kind ≠ .endOfInput := by simp [hopen]
        exact follows_loop_next (bne_iff_ne.mpr hkind) hround (Nat.lt_succ_self _)
          (follows_arguments hend Nat.one_pos ts)
      · rw [if_neg hopen, Row.next_cons, if_neg hopen]
        exact follows_pure ()

/-! ### Members -/

/-- The loop over members and the brace behind it. -/
def membersFrom (name : String) (ms : List Member) : Walk (List Member) := do
  let ms ← loop .members (fun k => k != .closeBrace && k != .endOfInput) (memberRound name) ms
  let _ ← expect .closeBrace (.unclosedModel name)
  pure ms

omit hend in
/-- A member that is read by a rule is put behind the others. -/
theorem follows_member {name : String} {ms : List Member} {m : α → Member}
    (hkind : (t.kind != .closeBrace && t.kind != .endOfInput) = true) (hr : Rule.Shrinks r)
    (hmembers : Reading.members name row.stop (t :: ts) =
      (r.noted row ts).bind fun a rest => (Reading.members name row.stop rest).cons (m a))
    (hround : Follows row (t :: ts) (memberRound name ms)
      ((r >>= fun a => pure (.yield (ms ++ [m a])) : Rule (ForInStep (List Member))).noted row ts))
    (ih : ∀ rest, rest.length < (t :: ts).length → ∀ ms,
      Follows row rest (membersFrom name ms) ((Reading.members name row.stop rest).prepend ms)) :
    Follows row (t :: ts) (membersFrom name ms)
      ((Reading.members name row.stop (t :: ts)).prepend ms) := by
  rw [Rule.noted_bind] at hround
  rw [hmembers]
  unfold Rule.noted Reading.Noted.bind at hround ⊢
  cases hread : r row.stop ts with
  | read a rest =>
      rw [hread] at hround
      have hlt : rest.length < (t :: ts).length := Nat.lt_succ_of_le (hr _ _ _ _ hread)
      show Follows row (t :: ts) (membersFrom name ms)
        (((Reading.members name row.stop rest).cons (m a)).prepend ms)
      rw [Noted.prepend_cons]
      exact follows_loop_next hkind hround hlt (ih rest hlt _)
  | fault e rest =>
      rw [hread] at hround
      exact follows_loop_fault (by decide) hkind hround
  | broken e =>
      rw [hread] at hround
      exact follows_loop_broken hkind hround

/-! A round takes a member, or it notes what is none; before another model it breaks off. -/

/-- A round over the members that finds a name reads a field. -/
theorem follows_memberRound_field {name : String} {ms : List Member} (named : t.kind.isName) :
    Follows row (t :: ts) (memberRound name ms)
      ((fieldNamed t >>= fun f => pure (.yield (ms ++ [Member.field f])) :
        Rule (ForInStep (List Member))).noted row ts) := by
  refine follows_next_bind ?_
  rw [Row.next_cons, if_pos named]
  exact follows_bind (follows_field hend t ts) fun _ => obeys_pure _

/-- A round that finds `@@unique` reads its arguments. -/
theorem follows_memberRound_unique {name : String} {ms : List Member} (unnamed : ¬ t.kind.isName)
    (block : t.kind = .composite) (text : t.text = "@@unique") :
    Follows row (t :: ts) (memberRound name ms)
      ((Reading.unique >>= fun names => pure (.yield (ms ++ [Member.unique names])) :
        Rule (ForInStep (List Member))).noted row ts) := by
  refine follows_next_bind ?_
  rw [Row.next_cons, if_neg unnamed, if_pos block]
  refine follows_advance_bind ?_
  rw [if_pos text]
  exact follows_bind (obeys_unique hend ts) fun _ => obeys_pure _

/-- A round that finds another block notes it, and leaves what follows its arguments. -/
theorem follows_memberRound_unsupported {name : String} {ms : List Member}
    (unnamed : ¬ t.kind.isName) (block : t.kind = .composite) (text : t.text ≠ "@@unique") :
    Follows row (t :: ts) (memberRound name ms)
      ⟨[⟨.unsupportedBlock t.text, t.position⟩], .read (.yield ms) (afterArguments ts)⟩ := by
  refine follows_next_bind ?_
  rw [Row.next_cons, if_neg unnamed, if_pos block]
  refine follows_advance_bind ?_
  rw [if_neg text]
  exact follows_note_bind (n := ⟨[], .read (ForInStep.yield ms) (afterArguments ts)⟩)
    ((follows_skipArguments hend ts).bind fun _ _ _ => follows_pure _)

omit hend in
/-- A round that finds the next model ends with a fault. -/
theorem follows_memberRound_model {name : String} {ms : List Member} (unnamed : ¬ t.kind.isName)
    (block : t.kind ≠ .composite) (model : t.kind = .model) :
    Follows row (t :: ts) (memberRound name ms)
      ⟨[], .fault ⟨.unclosedModel name, t.position⟩ (t :: ts)⟩ := by
  refine follows_next_bind ?_
  rw [Row.next_cons, if_neg unnamed, if_neg block, if_pos model]
  exact follows_fail _ _

omit hend in
/-- A round that finds anything else notes it, and goes on. -/
theorem follows_memberRound_stray {name : String} {ms : List Member} (unnamed : ¬ t.kind.isName)
    (block : t.kind ≠ .composite) (model : t.kind ≠ .model) :
    Follows row (t :: ts) (memberRound name ms)
      ⟨[⟨.strayMember t.text, t.position⟩], .read (.yield ms) ts⟩ := by
  refine follows_next_bind ?_
  rw [Row.next_cons, if_neg unnamed, if_neg block, if_neg model]
  exact follows_note_bind (n := ⟨[], .read (ForInStep.yield ms) ts⟩)
    (follows_advance_bind (follows_pure _))

/-- Behind the last member there is a brace, or a fault. -/
theorem follows_membersFrom_end (name : String) (ms : List Member)
    (h : ts = [] ∨ (row.next ts).kind = .closeBrace) :
    Follows row ts (membersFrom name ms) ((Reading.members name row.stop ts).prepend ms) := by
  have hclosing : Obeys row (do let _ ← expect .closeBrace (.unclosedModel name); pure ms)
      (do let _ ← Rule.expect .closeBrace (.unclosedModel name); pure ms) :=
    obeys_bind (obeys_expect hend _ (by decide)) fun _ => obeys_pure ms
  have hstop : row.stop.kind = .endOfInput := Row.kind_stop hend
  have hwalk := hclosing ts
  unfold Rule.noted at hwalk
  cases ts with
  | nil =>
      refine follows_loop_end (by simp [hstop]) ?_
      rw [Rule.expect, expectWhere_bind_of_not _ _ (by simp [hstop])] at hwalk
      rw [Reading.members]
      exact hwalk
  | cons t ts =>
      have hbrace : t.kind = .closeBrace := h.resolve_left (List.cons_ne_nil t ts)
      refine follows_loop_end (by simp [hbrace]) ?_
      rw [Rule.expect_bind_cons hbrace] at hwalk
      rw [Reading.members, if_pos hbrace]
      show Follows row (t :: ts) _ ⟨[], .read (ms ++ []) ts⟩
      rw [List.append_nil]
      exact hwalk

/-- The loop over members reads those that are left. -/
theorem follows_membersFrom (name : String) (ms : List Member) (ts : List Token) :
    Follows row ts (membersFrom name ms) ((Reading.members name row.stop ts).prepend ms) := by
  induction hn : ts.length using Nat.strong_induction_on generalizing ts ms with
  | _ n ih =>
      cases ts with
      | nil => exact follows_membersFrom_end hend name ms (.inl rfl)
      | cons t ts =>
          refine follows_cons fun hne => ?_
          have ihts : ∀ rest : List Token, rest.length < (t :: ts).length → ∀ ms,
              Follows row rest (membersFrom name ms)
                ((Reading.members name row.stop rest).prepend ms) :=
            fun rest hlt ms => ih _ (hn ▸ hlt) ms rest rfl
          by_cases brace : t.kind = .closeBrace
          · exact follows_membersFrom_end hend name ms (.inr brace)
          have hkind : (t.kind != .closeBrace && t.kind != .endOfInput) = true := by
            simp [brace, hne]
          by_cases named : t.kind.isName
          · refine follows_member hkind (shrinks_fieldNamed t) (m := .field) ?_
              (follows_memberRound_field hend named) ihts
            rw [members_of_isName named]
            unfold Rule.noted Reading.Noted.bind
            cases fieldNamed t row.stop ts <;> rfl
          by_cases block : t.kind = .composite
          · by_cases text : t.text = "@@unique"
            · refine follows_member hkind shrinks_unique (m := .unique) ?_
                (follows_memberRound_unique hend named block text) ihts
              rw [members_of_unique block text]
              unfold Rule.noted Reading.Noted.bind
              cases Reading.unique row.stop ts <;> rfl
            · have hlt := Nat.lt_succ_of_le (afterArguments_length ts)
              rw [members_unsupported block text, Noted.prepend_after]
              exact follows_loop_yield hkind (follows_memberRound_unsupported hend named block text)
                hlt (ihts _ hlt ms)
          by_cases model : t.kind = .model
          · rw [Reading.members, if_neg brace, if_neg named, if_neg block, if_pos model]
            exact follows_loop_fault (by decide) hkind (follows_memberRound_model named block model)
          · have hlt := Nat.lt_succ_self ts.length
            rw [members_stray brace named block model, Noted.prepend_after]
            exact follows_loop_yield hkind (follows_memberRound_stray named block model) hlt
              (ihts _ hlt ms)

theorem follows_members (name : String) (ts : List Token) :
    Follows row ts (members name) (Reading.members name row.stop ts) := by
  have h := follows_membersFrom hend name [] ts
  rwa [Noted.prepend_nil] at h

/-! ### Models -/

theorem obeys_modelHead : Obeys row modelHead Reading.modelHead :=
  obeys_bind (obeys_expect hend _ (by decide)) fun _ =>
    obeys_bind (obeys_expect hend _ (by decide)) fun _ =>
      obeys_bind (obeys_expect hend _ (by decide)) fun _ => obeys_pure _

omit hend in
/-- A model is its front and its members. -/
theorem model_eq (ts : List Token) :
    Reading.model row.stop ts = (Reading.modelHead.noted row ts).bind fun head rest =>
      (Reading.members head.2.text row.stop rest).bind fun ms =>
        (pure
          { name := head.2.text
            fields := ms.filterMap Reading.Member.field?
            uniques := ms.filterMap Reading.Member.unique?
            position := head.1.position } : Rule Model).noted row := by
  unfold Reading.model Rule.noted Reading.Noted.bind
  cases Reading.modelHead row.stop ts with
  | read head rest =>
      dsimp only
      obtain ⟨faults, reading⟩ := Reading.members head.2.text row.stop rest
      cases reading with
      | read ms rest => simp [Reading.Noted.behind, pure, Rule.pure]
      | fault e rest => rfl
      | broken e => rfl
  | fault e rest => rfl
  | broken e => rfl

theorem follows_model (ts : List Token) : Follows row ts model (Reading.model row.stop ts) := by
  rw [model_eq]
  exact (obeys_modelHead hend ts).bind fun head rest _ =>
    (follows_members hend head.2.text rest).bind fun _ _ _ => follows_pure _

/-- What is passed over ends before the next token `model`. -/
theorem follows_synchronize (ts : List Token) :
    Follows row ts synchronize ⟨[], .read () (Reading.synchronize ts)⟩ := by
  unfold synchronize Reading.synchronize
  induction ts with
  | nil => exact follows_loop_end (by simp [Row.kind_stop hend]) (follows_pure ())
  | cons t ts ih =>
      refine follows_cons fun hne => ?_
      by_cases hmodel : t.kind = .model
      · rw [List.dropWhile_cons_of_neg (by simp [hmodel])]
        exact follows_loop_end (by simp [hmodel]) (follows_pure ())
      · rw [List.dropWhile_cons_of_pos (by simp [hmodel])]
        exact follows_loop_next (by simp [hmodel, hne]) (follows_advance_bind (follows_pure _))
          (Nat.lt_succ_self _) ih

/-! ### Schemas -/

/-- The model that comes next, or nothing if it is passed over. -/
def oneModel (stop : Token) (ts : List Token) : Noted (List Model) :=
  ((Reading.model stop ts).bind fun m rest => ⟨[], .read [m] rest⟩).recover fun e rest =>
    ⟨[e], .read [] (Reading.synchronize rest)⟩

omit hend in
/-- A model or a fault leaves fewer tokens, off which the other models are read. -/
theorem oneModel_cases (stop t : Token) (ts : List Token) :
    (∃ ms es rest, oneModel stop (t :: ts) = ⟨es, .read ms rest⟩ ∧ rest.length < (t :: ts).length ∧
      Reading.models stop (t :: ts) = (Reading.models stop rest).map (found ms es)) ∨
    ∃ es e, oneModel stop (t :: ts) = ⟨es, .broken e⟩ ∧
      Reading.models stop (t :: ts) = .error e := by
  unfold oneModel
  cases hmodel : Reading.model stop (t :: ts) with
  | mk es reading =>
      cases reading with
      | read m rest =>
          refine .inl ⟨[m], es, rest, ?_, length_lt_of_model hmodel, models_of_read hmodel⟩
          simp [Reading.Noted.recover, Reading.Noted.bind, Reading.Noted.behind]
      | fault e rest =>
          exact .inl ⟨[], es ++ [e], Reading.synchronize rest, rfl, length_synchronize_lt hmodel,
            models_of_fault hmodel⟩
      | broken e => exact .inr ⟨es, e, rfl, models_of_broken (by rw [hmodel])⟩

/-- To walk over a model, or on to the next one after a fault, follows the reading of one model. -/
theorem follows_oneModel (ts : List Token) :
    Follows row ts
      (recover
        (do let m ← model
            pure [m])
        fun f => do
          note f
          synchronize
          pure [])
      (oneModel row.stop ts) :=
  ((follows_model hend ts).bind fun _ _ _ => follows_pure _).recover fun _ rest _ =>
    follows_note_bind (n := ⟨[], .read [] (Reading.synchronize rest)⟩)
      ((follows_synchronize hend rest).bind fun _ _ _ => follows_pure _)

/-- A model or a fault has moved the cursor, so nothing is dropped. -/
theorem follows_modelRound {found : List Model} (ms : List Model)
    (hread : oneModel row.stop ts = ⟨es, .read found rest⟩) (hlt : rest.length < ts.length) :
    Follows row ts (modelRound ms) ⟨es, .read (.yield (ms ++ found)) rest⟩ := by
  intro c hc
  have hwalk := follows_oneModel hend ts c hc
  rw [hread] at hwalk
  obtain ⟨c', hanswer, hreaches⟩ := hwalk
  have hmoved : c'.place ≠ c.place := Nat.ne_of_gt ((hreaches.lt_iff hc).mp hlt)
  have hstart : place row c = Part.some (.ok c.place, c) := rfl
  have hstop : place row c' = Part.some (.ok c'.place, c') := rfl
  refine ⟨c', ?_, hreaches⟩
  unfold modelRound
  rw [bind_of_ok hstart, bind_of_ok hanswer, bind_of_ok hstop, if_neg hmoved]
  rfl

/-- A number that breaks a model breaks the round over it. -/
theorem follows_modelRound_broken {e : NumeralFault} (ms : List Model)
    (hbroken : oneModel row.stop ts = ⟨es, .broken e⟩) :
    Follows row ts (modelRound ms) ⟨es, .broken e⟩ := by
  intro c hc
  have hwalk := follows_oneModel hend ts c hc
  rw [hbroken] at hwalk
  obtain ⟨c', es', rest, hanswer, hreaches⟩ := hwalk
  have hstart : place row c = Part.some (.ok c.place, c) := rfl
  refine ⟨c', es', rest, ?_, hreaches⟩
  unfold modelRound
  rw [bind_of_ok hstart, bind_of_error hanswer]

/-- What is read of models, behind those that were read already. -/
def modelsFrom (ms : List Model) :
    Except NumeralFault (List Model × List SyntaxFault) → Noted (List Model)
  | .ok (ms', es) => ⟨es, .read (ms ++ ms') []⟩
  | .error e => ⟨[], .broken e⟩

/-- The loop over models reads those that are left. -/
theorem follows_models (ms : List Model) (ts : List Token) :
    Follows row ts (loop .models (· != .endOfInput) modelRound ms >>= pure)
      (modelsFrom ms (Reading.models row.stop ts)) := by
  induction hn : ts.length using Nat.strong_induction_on generalizing ts ms with
  | _ n ih =>
      cases ts with
      | nil =>
          refine follows_loop_end (bne_eq_false_iff_eq.mpr (Row.kind_stop hend)) ?_
          rw [Reading.models]
          show Follows row [] (pure ms) ⟨[], .read (ms ++ []) []⟩
          rw [List.append_nil]
          exact follows_pure ms
      | cons t ts =>
          refine follows_cons fun hne => ?_
          obtain ⟨ms', es, rest, hread, hlt, hmodels⟩ | ⟨es, e, hbroken, hmodels⟩ :=
            oneModel_cases row.stop t ts
          · have h : Follows row (t :: ts)
                (loop .models (· != .endOfInput) modelRound ms >>= pure)
                ((modelsFrom (ms ++ ms') (Reading.models row.stop rest)).behind es) :=
              follows_loop_yield (bne_iff_ne.mpr hne) (follows_modelRound hend ms hread hlt) hlt
                (ih _ (hn ▸ hlt) (ms ++ ms') rest rfl)
            rw [hmodels]
            cases hrest : Reading.models row.stop rest with
            | ok r =>
                rw [hrest] at h
                show Follows row (t :: ts) _ ⟨es ++ r.2, .read (ms ++ (ms' ++ r.1)) []⟩
                rw [← List.append_assoc]
                exact h
            | error e =>
                rw [hrest] at h
                exact h
          · rw [hmodels]
            have h := follows_modelRound_broken hend ms hbroken
            show Follows row (t :: ts) _ ⟨es, .broken e⟩
            exact follows_loop_broken (bne_iff_ne.mpr hne) h

/-- A whole row is walked as it is read, from its beginning. -/
theorem parsed_walked :
    ∃ es rest c, parsed row .start =
        Part.some (((Reading.models row.stop row.inner).map fun r =>
          (⟨some ⟨r.1⟩, r.2⟩ : Parsed)).mapError .broken, c) ∧
      Cursor.start.Reaches row es rest c := by
  have hstart : Cursor.start.At row row.inner := ⟨Nat.zero_le _, rfl⟩
  have h := follows_models hend [] row.inner .start hstart
  rw [bind_pure_eq] at h
  unfold parsed
  cases hmodels : Reading.models row.stop row.inner with
  | ok r =>
      rw [hmodels] at h
      obtain ⟨c, hanswer, hreaches⟩ := h
      have hnoted : noted row c = Part.some (.ok c.faults, c) := rfl
      refine ⟨r.2, [], c, ?_, hreaches⟩
      rw [bind_of_ok hanswer, bind_of_ok hnoted, hreaches.faults]
      rfl
  | error e =>
      rw [hmodels] at h
      obtain ⟨c, es, rest, hanswer, hreaches, -⟩ := h
      exact ⟨es, rest, c, bind_of_error hanswer, hreaches⟩

end

/-- Walking along any tokens ends as the reading does, with one step from each place up to that of
the end of the input at most. -/
theorem run_walked (ts : List Token) :
    ∃ c, run ts = Part.some ((Schema.ofTokens ts).mapError .broken, c) ∧
      c.moves.filterMap Move.step? = List.range c.place ∧
      c.place ≤ ts.findIdx (fun t => t.kind == .endOfInput) ∧ ∀ m ∈ c.moves, m.IsForward := by
  unfold run Schema.ofTokens
  cases hrow : Row.ofList? ts with
  | none =>
      have hts : ts = [] := List.getLast?_eq_none_iff.mp (Option.map_eq_none_iff.mp hrow)
      subst hts
      exact ⟨.start, rfl, rfl, Nat.zero_le _, fun _ hm => absurd hm List.not_mem_nil⟩
  | some row =>
      obtain ⟨hend, htokens, hplace⟩ := Row.tokens_of_ofList? hrow
      obtain ⟨es, rest, c, hparsed, hreaches⟩ := parsed_walked hend
      obtain ⟨ms, hms, hsteps, hforward⟩ := hreaches.moves
      replace hms : c.moves = ms := hms
      subst hms
      refine ⟨c, ?_, ?_, hplace ▸ hreaches.at_.place_le, hforward⟩
      · rw [htokens]
        exact hparsed
      · rw [hsteps, List.range_eq_range']
        rfl

/-- **Progress.**  Walking along any tokens ends as the reading does.  It takes one token after the
other, none of them twice and never the first end of the input.  Each round over models moves the
cursor, and so does each round of any loop that is gone on with; nothing is ever dropped. -/
theorem run_progresses (ts : List Token) :
    ∃ c, run ts = Part.some ((Schema.ofTokens ts).mapError .broken, c) ∧
      c.moves.filterMap Move.step? = List.range c.place ∧
      c.place ≤ ts.findIdx (fun t => t.kind == .endOfInput) ∧
      (c.moves.filterMap Move.step?).length ≤ ts.length ∧
      (∀ start stop again, .round .models start stop again ∈ c.moves → start < stop) ∧
      (∀ l start stop, .round l start stop true ∈ c.moves → start < stop) ∧
      ∀ place, .drop place ∉ c.moves := by
  obtain ⟨c, hrun, hsteps, hplace, hforward⟩ := run_walked ts
  refine ⟨c, hrun, hsteps, hplace, ?_, fun start stop again h => hforward _ h (.inr rfl),
    fun l start stop h => hforward _ h (.inl rfl), fun place h => hforward _ h⟩
  rw [hsteps, List.length_range]
  exact Nat.le_trans hplace List.findIdx_le_length

end Walk

end Schemata
