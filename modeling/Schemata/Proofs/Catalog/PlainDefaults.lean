import Schemata.Proofs.Catalog.WrittenDefaults
import Schemata.Proofs.Plan.Changes

/-!
# Proofs — catalogs — defaults without quotes

MySQL shows the text that is the default of a column as it is, without quotes, and remarks on
defaults that are expressions.  That remark is not looked at, and a text is taken for what it looks
like: the blanks at its ends go, and one that begins like the present time, or is spelled like the
call of a unique identifier, is read as that call.

* `mysqlDefault_text_iff` — so a text is read as itself exactly if it looks like nothing else
  (`StandsForItself`), and exactly then a column that is deployed with it is left as it is.
-/

namespace Schemata

open Text NativeDefault

/-- The text has no blanks at its ends and is spelled like no call. -/
structure NativeDefault.StandsForItself (text : String) : Prop where
  trimmed : strip text = text
  notNow : isNow (lower text) = false
  notUuid : lower text ∉ uuidForms ++ ["(uuid())"]

/-! ### What is read -/

theorem length_undoubled_le (cs : List Char) : (undoubled cs).length ≤ cs.length := by
  fun_induction undoubled cs with
  | case1 => exact Nat.le_refl _
  | case2 cs ih => simp only [List.length_cons]; omega
  | case3 c cs _ ih => simp only [List.length_cons]; omega

/-- To take a text out of its quotes makes it no longer. -/
theorem length_unquotedString_le (cs : List Char) : (unquotedString cs).length ≤ cs.length := by
  unfold unquotedString
  split
  next rest =>
      split
      · have := length_undoubled_le rest.dropLast
        rw [List.length_dropLast] at this
        rw [List.length_cons]
        omega
      · exact Nat.le_refl _
  next => exact Nat.le_refl _

theorem strip_sublist (text : String) : List.Sublist (strip text).toList text.toList := by
  rw [toList_strip]
  have hright : List.Sublist (stripRight (stripLeft text.toList)) (stripLeft text.toList) := by
    unfold stripRight
    conv => rhs; rw [← List.reverse_reverse (stripLeft text.toList)]
    exact (List.dropWhile_sublist _).reverse
  exact hright.trans (List.dropWhile_sublist _)

/-- A text is read as the call it looks like, or as a text again, whatever is remarked besides of
counting up. -/
theorem mysqlDefault_shown {extra : String}
    (hextra : occursIn "auto_increment".toList (lower extra).toList = false) (raw : String) :
    mysqlDefault (some raw) extra Scalar.string.name = .ok (some (
      if isNow (lower (strip raw)) then .call .now
      else if lower (strip raw) ∈ uuidForms ++ ["(uuid())"] then .call .uuid
      else .literal (.text (String.ofList (unquotedString (strip raw).toList))))) := by
  have hbool : (Scalar.string.name == Scalar.boolean.name) = false := by decide
  have htyped (text : List Char) :
      typedLiteral text Scalar.string.name = .ok (.text (String.ofList text)) := by
    unfold typedLiteral
    rw [show (Scalar.string.name == Scalar.int.name || Scalar.string.name == Scalar.float.name) =
      false by decide, Bool.false_and, if_neg Bool.false_ne_true]
  have huuid : (uuidForms.contains (lower (strip raw)) || lower (strip raw) == "(uuid())") = true ↔
      lower (strip raw) ∈ uuidForms ++ ["(uuid())"] := by
    rw [Bool.or_eq_true, List.contains_iff_mem, beq_iff_eq, List.mem_append, List.mem_singleton]
  unfold mysqlDefault
  dsimp only
  rw [hextra, if_neg Bool.false_ne_true, hbool, Bool.false_and, if_neg Bool.false_ne_true, htyped]
  simp only [huuid]
  cases isNow (lower (strip raw)) with
  | true => rfl
  | false =>
      rw [if_neg Bool.false_ne_true, if_neg Bool.false_ne_true]
      split <;> rfl

/-- A text is read as itself exactly if it stands for itself. -/
theorem mysqlDefault_eq_text_iff {extra raw : String}
    (hextra : occursIn "auto_increment".toList (lower extra).toList = false)
    (hquote : raw.toList.head? ≠ some '\'') :
    mysqlDefault (some raw) extra Scalar.string.name = .ok (some (.literal (.text raw))) ↔
      StandsForItself raw := by
  rw [mysqlDefault_shown hextra, Except.ok.injEq, Option.some.injEq]
  constructor
  · intro h
    split at h
    next => cases h
    next hnow =>
        split at h
        next => cases h
        next huuid =>
            -- a text that is read has lost no character on the way
            have htext : String.ofList (unquotedString (strip raw).toList) = raw := by
              simpa using h
            have hlength : raw.toList.length ≤ (strip raw).toList.length := by
              rw [← htext, String.toList_ofList, htext]
              exact length_unquotedString_le _
            have htrim : strip raw = raw :=
              String.toList_inj.mp ((strip_sublist raw).eq_of_length_le hlength)
            rw [htrim] at hnow huuid
            exact ⟨htrim, by simpa using hnow, huuid⟩
  · rintro ⟨htrim, hnow, huuid⟩
    have hplain : unquotedString raw.toList = raw.toList := by
      unfold unquotedString
      split
      next heq => rw [heq] at hquote; exact absurd rfl hquote
      next => rfl
    rw [htrim, hnow, if_neg Bool.false_ne_true, if_neg huuid, hplain, String.ofList_toList]

/-! ### Deployed columns -/

/-- A column of strings is shown as a field with the default that is read. -/
theorem Table.columnField_mysql {t : Table} {c : Column} {v : Option Default}
    (htype : mysqlScalar c.dataType c.fullType = (.string, false))
    (hdefault : mysqlDefault c.default c.extra Scalar.string.name = .ok v) :
    ∃ f, t.columnField .mysql c = .ok f ∧ f.typeName = Scalar.string.name ∧ f.isArray = false ∧
      f.default = v := by
  unfold columnField
  rw [if_pos rfl, htype]
  dsimp only
  rw [if_pos rfl, hdefault]
  exact ⟨_, rfl, rfl, rfl, rfl⟩

theorem Default.sameOption_text_iff {a : Option Default} {text : String} :
    Default.sameOption a (some (.literal (.text text))) = true ↔
      a = some (.literal (.text text)) := by
  rcases a with _ | (v | g)
  · simp [sameOption]
  · cases v <;> simp [sameOption, same, Literal.same]
  · simp [sameOption, same]

/-- **A text that MySQL shows without quotes** is read as itself exactly if it stands for itself,
whatever is remarked besides of counting up.  A column of texts that is deployed with that default
is always read, and where it is declared alike but for the default, exactly then no change of it is
planned. -/
theorem mysqlDefault_text_iff {raw extra : String}
    (hextra : occursIn "auto_increment".toList (lower extra).toList = false)
    (hquote : raw.toList.head? ≠ some '\'') :
    (mysqlDefault (some raw) extra Scalar.string.name = .ok (some (.literal (.text raw))) ↔
      StandsForItself raw) ∧
    ∀ (t : Table) (c : Column) (f : Field), c.default = some raw → c.extra = extra →
      mysqlScalar c.dataType c.fullType = (.string, false) →
      f.typeName = Scalar.string.name → f.isArray = false →
      f.default = some (.literal (.text raw)) →
      ∃ g, t.columnField .mysql c = .ok g ∧
        (g.isNotNull = f.isNotNull → g.hasUniqueConstraint = f.hasUniqueConstraint →
          ∀ table, (Plan.alterColumn .mysql table g f).outcome = .ok [] ↔ StandsForItself raw) := by
  have hread := mysqlDefault_eq_text_iff hextra hquote
  refine ⟨hread, fun t c f hraw hremark htype hname harray hdefault => ?_⟩
  have hshown := mysqlDefault_shown hextra raw
  rw [← hraw, ← hremark] at hshown
  obtain ⟨g, hg, hgname, hgarray, hgdefault⟩ := Table.columnField_mysql htype hshown
  refine ⟨g, hg, fun hnull hunique table => ?_⟩
  have hscalar : f.scalar? = some .string := by rw [Field.scalar?, hname]; decide
  have hgscalar : g.scalar? = some .string := by rw [Field.scalar?, hgname]; decide
  have hfits : f.Fits := fun v hv => by
    rw [hdefault] at hv
    cases hv
    rw [hscalar]
    rfl
  have hsame : Default.sameOption g.default f.default = true ↔ StandsForItself raw := by
    rw [hdefault, Default.sameOption_text_iff, hgdefault, ← hread, mysqlDefault_shown hextra,
      Except.ok.injEq]
  rw [Plan.alterColumn_ok_iff (by rw [Field.isColumn, hgscalar]; rfl)
    (by rw [Field.isColumn, hscalar]; rfl), ← hsame]
  constructor
  · rintro ⟨-, hchanges⟩
    exact (Plan.changes_eq_nil_iff.mp hchanges.symm).default
  · intro h
    refine ⟨fun _ => hfits, (Plan.changes_eq_nil_iff.mpr ⟨?_, hnull, h, hunique⟩).symm⟩
    rw [Field.storedType, Field.storedType, hscalar, hgscalar, hgarray, harray]

/-- A column whose default has words in it that look like a call, and quotes. -/
def motto : Field :=
  { name := "motto", typeName := "string"
    default := some (.literal (.text "it's \"now()\" or 0")) }

/-- The column as MySQL tells of it. -/
def mottoColumn : Column :=
  { name := "motto", dataType := "varchar", fullType := "varchar(255)"
    default := some "it's \"now()\" or 0" }

/-- The default is read as it is, and the column stays as it is. -/
theorem motto_unchanged :
    mysqlDefault mottoColumn.default "" "string" = .ok motto.default ∧
      ∃ g, Table.columnField ⟨"user", [mottoColumn], []⟩ .mysql mottoColumn = .ok g ∧
        (Plan.alterColumn .mysql "user" g motto).outcome = .ok [] := by
  have hmotto : StandsForItself "it's \"now()\" or 0" :=
    ⟨by with_unfolding_all rfl, by with_unfolding_all rfl, by with_unfolding_all decide⟩
  have hextra : occursIn "auto_increment".toList (lower "").toList = false := by
    with_unfolding_all rfl
  have hread : Table.columnField ⟨"user", [mottoColumn], []⟩ .mysql mottoColumn = .ok motto := by
    with_unfolding_all rfl
  refine ⟨(mysqlDefault_text_iff hextra (by decide)).1.mpr hmotto, ?_⟩
  obtain ⟨g, hg, hchanges⟩ := (mysqlDefault_text_iff hextra (by decide)).2
    ⟨"user", [mottoColumn], []⟩ mottoColumn motto rfl rfl (by with_unfolding_all rfl) rfl rfl rfl
  obtain rfl := Except.ok.inj (hread.symm.trans hg)
  exact ⟨motto, hg, (hchanges rfl rfl "user").mpr hmotto⟩

/-- A blank before a text is lost, and a text that begins like the present time is lost as a whole,
remark or not. -/
theorem mysqlDefault_draft :
    mysqlDefault (some " draft") "" "string" = .ok (some (.literal (.text "draft"))) ∧
      mysqlDefault (some "now() or never") "" "string" = .ok (some (.call .now)) ∧
      mysqlDefault (some "now() or never") "DEFAULT_GENERATED" "string" =
        .ok (some (.call .now)) := by
  refine ⟨?_, ?_, ?_⟩ <;> with_unfolding_all rfl

end Schemata
