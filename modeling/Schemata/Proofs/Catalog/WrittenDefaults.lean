import Schemata.Proofs.Catalog.Fields

/-!
# Proofs — catalogs — written defaults

A default is written for a column, the server keeps what was written, and it is read as the default
that it was (`Field.default_reads_back`).  Postgres shows a string with its type after it
(`Expression.IsShownAs`), MySQL shows it as it was written.

What the reading asks of a literal is that its number is one of digits (`Literal.IsPlain`).  A text
may be anything: within its quotes it is taken for nothing else, whatever it says
(`postgresDefault_string`, `mysqlDefault_string`).
-/

namespace Schemata

-- Powers of whole numbers are the ones of the core library, whichever algebra is imported.
attribute [local instance (high)] instPowNat

open Text Numeral NativeDefault

/-! ### Expressions that MySQL shows -/

/-- What begins otherwise than all of some forms do begins with none of them. -/
theorem isPrefixOf_of_head {cs heads : List Char} {c : Char} {forms : List String}
    (hheads : ∀ form ∈ forms, form.toList.head?.any heads.contains) (hc : c ∉ heads) :
    ∀ form ∈ forms, form.toList.isPrefixOf (c :: cs) = false := by
  intro form hform
  have hhead := hheads form hform
  cases hlist : form.toList with
  | nil => rw [hlist] at hhead; cases hhead
  | cons d ds =>
      rw [hlist] at hhead
      have hd : (d == c) = false := beq_eq_false_iff_ne.mpr fun h =>
        hc (h ▸ List.contains_iff_mem.mp hhead)
      rw [List.isPrefixOf_cons_cons, hd, Bool.false_and]

theorem not_mem_of_head {s : String} {cs heads : List Char} {c : Char} {forms : List String}
    (hs : s.toList = c :: cs)
    (hheads : ∀ form ∈ forms, form.toList.head?.any heads.contains) (hc : c ∉ heads) :
    s ∉ forms := fun hmem => by
  have hprefix := @isPrefixOf_of_head cs heads c forms hheads hc s hmem
  rw [hs, ← Bool.not_eq_true, List.isPrefixOf_iff_prefix] at hprefix
  exact hprefix (List.prefix_refl _)

/-- An expression that begins with none of the letters of the calls, and that is no truth value, is
a string or a numeral. -/
theorem mysqlDefault_of_head {raw typeName : String} {c : Char} {cs : List Char}
    (hraw : stripRight (stripLeft raw.toList) = c :: cs) (hascii : c.toNat < 128)
    (hletter : c.toLower ∉ ['n', 'c', 'l', 'g', 'u', '('])
    (htruth : typeName = Scalar.boolean.name → c.toLower ∉ ['0', '1', 't', 'f']) :
    mysqlDefault (some raw) "" typeName =
      (typedLiteral (unquotedString (c :: cs)) typeName).map (some <| .literal ·) := by
  have hstrip : (strip raw).toList = c :: cs := (toList_strip raw).trans hraw
  obtain ⟨rest, hlower⟩ := lowerFrom_cons hascii false cs
  have hlow : (lower (strip raw)).toList = c.toLower :: rest := by
    rw [toList_lower, hstrip, hlower]
  have hnow : isNow (lower (strip raw)) = false := by
    unfold isNow
    rw [List.any_eq_false, hlow]
    intro form hform
    rw [@isPrefixOf_of_head _ _ _ nowForms (by decide) hletter form hform]
    exact Bool.false_ne_true
  have huuid : (uuidForms.contains (lower (strip raw)) || lower (strip raw) == "(uuid())") =
      false := by
    have hnot : lower (strip raw) ∉ uuidForms ++ ["(uuid())"] :=
      not_mem_of_head hlow (by decide) hletter
    simpa using hnot
  have hbool : (typeName == Scalar.boolean.name &&
      ["0", "1", "true", "false"].contains (lower (strip raw))) = false := by
    rw [← Bool.not_eq_true, Bool.and_eq_true, List.contains_iff_mem, beq_iff_eq]
    rintro ⟨htype, hmem⟩
    exact not_mem_of_head hlow (by decide) (htruth htype) hmem
  have hcounts : occursIn "auto_increment".toList (lower "").toList = false := by decide
  unfold mysqlDefault
  dsimp only
  rw [hcounts, hnow, huuid, hbool, hstrip]
  rfl

/-! ### Numbers, strings and calls -/

/-- A number with digits, and a point or none, is a numeral. -/
theorem isNumeral_pointed {negative : Bool} {ws ps : List Char} (hws : ws ≠ [])
    (hw : IsDigits ws) (hp : IsDigits ps) : isNumeral (signed negative (pointed ws ps)) = true := by
  have hline : '\n' ∉ signed negative (pointed ws ps) := fun h =>
    absurd (isBlank_pointed hw hp _ h) (by decide)
  have hlast : (signed negative (pointed ws ps)).getLast? ≠ some '\n' := fun h =>
    hline (List.mem_of_getLast? h)
  have hprefix : numeralPrefix? (signed negative (pointed ws ps ++ [])) =
      some (signed negative (pointed ws ps), []) :=
    numeralPrefix?_pointed hws hw hp fun c hc => by cases hc
  rw [List.append_nil] at hprefix
  unfold isNumeral withoutNewline
  rw [if_neg hlast, hprefix]
  rfl

/-- A numeral is read as the number it stands for, if the column holds numbers. -/
theorem mysqlDefault_pointed {negative : Bool} {ws ps : List Char} {raw typeName : String}
    (hws : ws ≠ []) (hw : IsDigits ws) (hp : IsDigits ps)
    (hname : typeName = Scalar.int.name ∨ typeName = Scalar.float.name)
    (hraw : raw = String.ofList (signed negative (pointed ws ps))) :
    mysqlDefault (some raw) "" typeName = (Literal.ofNumeral raw).map (some <| .literal ·) := by
  obtain ⟨d, ds, hcons, hd⟩ := signed_head negative hws hw (if ps = [] then [] else '.' :: ps)
  have hstrip : stripRight (stripLeft raw.toList) = d :: ds := by
    rw [hraw, String.toList_ofList, strip_eq_self (isBlank_pointed hw hp)]
    exact hcons
  have hlower : d.toLower = d ∧ d.toNat < 128 := by
    rcases hd with rfl | hd
    · decide
    · exact ⟨toLower_of_digit hd, Nat.lt_of_le_of_lt (isDigit_iff.mp hd).2 (by decide)⟩
  have hletter : d.toLower ∉ ['n', 'c', 'l', 'g', 'u', '('] := by
    rw [hlower.1]
    rcases hd with rfl | hd
    · decide
    · intro hmem
      have hall : (['n', 'c', 'l', 'g', 'u', '('].all fun c => !c.isDigit) = true := by decide
      have hnot := List.all_eq_true.mp hall d hmem
      rw [hd] at hnot
      cases hnot
  have hquote : unquotedString (d :: ds) = d :: ds := by
    unfold unquotedString
    split
    next heq =>
        cases heq
        exact absurd hd (by decide)
    next => rfl
  have hnumber : (typeName == Scalar.int.name || typeName == Scalar.float.name) = true := by
    simpa using hname
  have htype : typeName ≠ Scalar.boolean.name := by
    rcases hname with rfl | rfl <;> decide
  rw [mysqlDefault_of_head hstrip hlower.2 hletter fun h => absurd h htype, hquote]
  unfold typedLiteral
  rw [← hcons, hnumber]
  show Except.map _ (if true && isNumeral (signed negative (pointed ws ps)) then _ else _) = _
  rw [isNumeral_pointed hws hw hp, hraw]
  rfl

/-- **A string** is read back from its quotes, if the column holds no numbers. -/
theorem mysqlDefault_string {typeName : String}
    (hname : typeName ≠ Scalar.int.name ∧ typeName ≠ Scalar.float.name) (text : String) :
    mysqlDefault (some (enclosed '\'' text)) "" typeName = .ok (some (.literal (.text text))) := by
  have hlist : (enclosed '\'' text).toList = '\'' :: (doubled '\'' text.toList ++ ['\'']) := by
    simp [enclosed]
  have hlast : ∀ c ∈ ('\'' :: (doubled '\'' text.toList ++ ['\''])).getLast?,
      isBlank c = false := by
    intro c hc
    rw [← List.cons_append, List.getLast?_append] at hc
    cases hc
    decide
  have hstrip : stripRight (stripLeft (enclosed '\'' text).toList) =
      '\'' :: (doubled '\'' text.toList ++ ['\'']) := by
    have hright := @stripRight_append _ [] hlast
    rw [List.append_nil] at hright
    rw [hlist, stripLeft_of_head (by decide), hright]
    exact List.append_nil _
  have hquote : unquotedString ('\'' :: (doubled '\'' text.toList ++ ['\''])) = text.toList := by
    show (if (doubled '\'' text.toList ++ ['\'']).getLast? = some '\'' then
      undoubled (doubled '\'' text.toList ++ ['\'']).dropLast else _) = _
    rw [List.getLast?_concat, if_pos rfl, List.dropLast_concat, undoubled_doubled]
  have htyped : typedLiteral text.toList typeName = .ok (.text text) := by
    unfold typedLiteral
    rw [beq_eq_false_iff_ne.mpr hname.1, beq_eq_false_iff_ne.mpr hname.2]
    simp
  rw [mysqlDefault_of_head hstrip (by decide) (by decide) fun _ => by decide, hquote, htyped]
  rfl

theorem mysqlDefault_none (typeName : String) : mysqlDefault none "" typeName = .ok none := rfl

theorem mysqlDefault_bool (b : Bool) :
    mysqlDefault (some (if b then "true" else "false")) "" Scalar.boolean.name =
      .ok (some (.literal (.bool b))) := by
  cases b <;> with_unfolding_all rfl

/-- What MySQL calls for a generated default is read as that default. -/
theorem mysqlDefault_call {g : Generator} {text : String} (h : g.expression? .mysql = some text)
    (typeName : String) : mysqlDefault (some text) "" typeName = .ok (some (.call g)) := by
  cases g <;> cases h <;> with_unfolding_all rfl

/-! ### Written defaults -/

namespace Literal

variable {v : Literal} {s : Scalar}

/-- **A literal** is read back from its text. -/
theorem mysqlDefault_written (hfits : (v.expression? s).isSome) (hplain : v.IsPlain) :
    mysqlDefault (some v.written.render) "" s.name = .ok (some (.literal v)) := by
  cases v with
  | bool b =>
      obtain rfl : s = .boolean := by cases s <;> first | rfl | cases hfits
      exact mysqlDefault_bool b
  | int n =>
      have hname : s.name = Scalar.int.name ∨ s.name = Scalar.float.name := by
        cases s <;> first | exact .inl rfl | exact .inr rfl | cases hfits
      show mysqlDefault (some (toString n)) "" s.name = _
      rw [mysqlDefault_pointed Nat.toDigits_ne_nil (isDigits_toDigits _)
        (fun c hc => absurd hc List.not_mem_nil) hname (toString_eq_pointed n),
        ofNumeral_toString hplain]
      rfl
  | float x =>
      have hname : s.name = Scalar.float.name := by cases s <;> first | rfl | cases hfits
      obtain ⟨negative, ws, ps, hpointed, hread⟩ := isPointed_of_isPlain hplain
      show mysqlDefault (some x.text) "" s.name = _
      rw [mysqlDefault_pointed hpointed.whole.1 hpointed.whole.2 hpointed.places.2 (.inr hname)
        (text_eq_pointed hpointed), ofNumeral_text hpointed hread]
      rfl
  | text t => exact mysqlDefault_string (name_ne_of_text hfits) t

end Literal

namespace Field

variable {f : Field} {d : Dialect} {e : Option Expression}

/-- What is written of a default: nothing where there is none, the expression of a call, and the
literal itself where it is one for the column. -/
theorem written_cases {s : Scalar} (hs : f.scalar? = some s) (hfits : f.Fits)
    (hcount : f.isAutoincrement = false) :
    (f.default = none ∧ f.storedDefault d = none) ∨
    (∃ g text, f.default = some (.call g) ∧ g.expression? d = some text ∧
      f.storedDefault d = some (.verbatim text)) ∨
    ∃ v, f.default = some (.literal v) ∧ (v.expression? s).isSome ∧
      f.storedDefault d = some v.written := by
  unfold storedDefault
  cases hdefault : f.default with
  | none => exact .inl ⟨rfl, rfl⟩
  | some default =>
      cases default with
      | call g =>
          -- of the generators only counting up has no expression
          obtain ⟨text, htext⟩ : ∃ text, g.expression? d = some text := by
            cases g with
            | autoincrement => simp [isAutoincrement, hdefault] at hcount
            | uuid => cases d <;> exact ⟨_, rfl⟩
            | now => cases d <;> exact ⟨_, rfl⟩
          exact .inr (.inl ⟨g, text, rfl, htext, by simp [Default.written?, htext]⟩)
      | literal v =>
          have hv := hfits v hdefault
          rw [hs] at hv
          exact .inr (.inr ⟨v, rfl, hv, rfl⟩)

/-- **A written default reads back.**  Whatever the default of a column is, but counting up: once it
is written, Postgres and MySQL show an expression that is read as that default again. -/
theorem default_reads_back {model : String} (hcolumn : f.isColumn)
    (hcount : f.isAutoincrement = false)
    (hplain : ∀ v, f.default = some (.literal v) → v.IsPlain) :
    (∀ e, (f.defaultExpression .postgres model).outcome = .ok e →
      ∀ raw, Expression.IsShownAs e raw → postgresDefault raw f.typeName = .ok f.default) ∧
    ∀ e, (f.defaultExpression .mysql model).outcome = .ok e →
      mysqlDefault (e.map Expression.render) "" f.typeName = .ok f.default := by
  obtain ⟨s, hs⟩ := isColumn_iff.mp hcolumn
  have hname : s.name = f.typeName := by simpa using List.find?_some hs
  rw [← hname]
  constructor
  · intro e he raw hraw
    obtain ⟨hfits, rfl⟩ := defaultExpression_ok_iff.mp he
    rcases written_cases hs hfits hcount with
      ⟨hdefault, hstored⟩ | ⟨g, text, hdefault, htext, hstored⟩ | ⟨v, hdefault, hv, hstored⟩
    · rw [hstored] at hraw
      cases hraw
      rw [hdefault, postgresDefault_none]
    · rw [hstored] at hraw
      cases hraw
      rw [hdefault, postgresDefault_call htext]
    · rw [hstored] at hraw
      rw [hdefault, Literal.postgresDefault_written hv (hplain v hdefault) hraw]
  · intro e he
    obtain ⟨hfits, rfl⟩ := defaultExpression_ok_iff.mp he
    rcases written_cases hs hfits hcount with
      ⟨hdefault, hstored⟩ | ⟨g, text, hdefault, htext, hstored⟩ | ⟨v, hdefault, hv, hstored⟩
    · rw [hstored, hdefault, Option.map_none, mysqlDefault_none]
    · rw [hstored, hdefault, Option.map_some]
      exact mysqlDefault_call htext s.name
    · rw [hstored, hdefault, Option.map_some]
      exact Literal.mysqlDefault_written hv (hplain v hdefault)

/-- A note that looks like several other things: a quoted word, a call and a cast. -/
def quotingNote : Field :=
  { name := "note", typeName := "string",
    default := some (.literal (.text "it's 'now()'::text\n0")) }

/-- It reads back from what either server shows. -/
theorem quotingNote_reads_back :
    postgresDefault (some "'it''s ''now()''::text\n0'::character varying") "string" =
        .ok quotingNote.default ∧
      mysqlDefault (some "'it''s ''now()''::text\n0'") "" "string" = .ok quotingNote.default := by
  obtain ⟨hpostgres, hmysql⟩ := @default_reads_back quotingNote "entry" (by decide)
    (by decide) fun v hv => by cases hv; trivial
  exact ⟨hpostgres _ rfl _ ⟨"character varying", by decide, by decide⟩, hmysql _ rfl⟩

end Field

end Schemata
