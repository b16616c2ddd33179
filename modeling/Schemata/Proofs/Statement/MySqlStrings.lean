import Schemata.Proofs.Plan.Column
import Schemata.Statement.Rendering

/-!
# Proofs — statements — strings of MySQL

A string is written between single quotes with every single quote in it written twice, for every
dialect.  MySQL reads more into a string than that: a backslash takes the character after it along
(`MySql.string?`).  So a text means itself only if no backslash in it does anything.

* `Field.mysqlText_iff` — the default of a column is there wherever the column is written, and is
  read as the text that it is exactly if that text is inert (`MySql.IsInert`).
-/

namespace Schemata

namespace MySql

/-! ### Reading a string -/

/-- What a backslash makes of the character after it. -/
def unescaped : Char → List Char
  | '0' => ['\x00']
  | 'b' => ['\x08']
  | 'n' => ['\n']
  | 'r' => ['\r']
  | 't' => ['\t']
  | 'Z' => ['\x1a']
  | '%' => ['\\', '%']
  | '_' => ['\\', '_']
  | c => [c]

/-- The value of a string up to the quote that closes it, and what comes after that quote. -/
def stringTail? : List Char → Option (List Char × List Char)
  | [] => none
  | '\'' :: '\'' :: cs => (stringTail? cs).map fun (value, rest) => ('\'' :: value, rest)
  | '\'' :: cs => some ([], cs)
  | '\\' :: c :: cs => (stringTail? cs).map fun (value, rest) => (unescaped c ++ value, rest)
  | c :: cs => (stringTail? cs).map fun (value, rest) => (c :: value, rest)

/-- The value of the string that a text begins with, and what comes after it. -/
def string? : List Char → Option (List Char × List Char)
  | '\'' :: cs => stringTail? cs
  | _ => none

/-- A text in which every backslash stands before a percent sign or an underscore, where it is only
a backslash. -/
def IsInert (cs : List Char) : Prop :=
  ∀ before after, cs = before ++ '\\' :: after → ∃ c ∈ after.head?, c = '%' ∨ c = '_'

variable {c : Char} {cs rest value : List Char}

/-- A text is inert exactly if it begins inertly and the rest is inert. -/
theorem isInert_cons_iff :
    IsInert (c :: cs) ↔ (c = '\\' → ∃ d ∈ cs.head?, d = '%' ∨ d = '_') ∧ IsInert cs := by
  constructor
  · intro h
    exact ⟨fun hc => h [] cs (by rw [hc]; rfl), fun before after hcs =>
      h (c :: before) after (by rw [hcs]; rfl)⟩
  · rintro ⟨hhead, htail⟩ before after hcs
    cases before with
    | nil =>
        obtain ⟨rfl, rfl⟩ := List.cons.inj hcs
        exact hhead rfl
    | cons d before =>
        obtain ⟨rfl, rfl⟩ := List.cons.inj hcs
        exact htail before after rfl

theorem isInert_nil : IsInert [] := fun before after h => by simp at h

instance decidableIsInert : (cs : List Char) → Decidable (IsInert cs)
  | [] => .isTrue isInert_nil
  | c :: cs =>
    have := decidableIsInert cs
    -- by the next character, and not by all there are
    have : Decidable (∃ d ∈ cs.head?, d = '%' ∨ d = '_') := Option.decidableExistsMem cs.head?
    decidable_of_iff ((c = '\\' → ∃ d ∈ cs.head?, d = '%' ∨ d = '_') ∧ IsInert cs)
      isInert_cons_iff.symm

theorem stringTail?_close (h : rest.head? ≠ some '\'') :
    stringTail? ('\'' :: rest) = some ([], rest) := by
  rw [stringTail?]
  rintro cs rfl
  exact h rfl

theorem stringTail?_cons (hquote : c ≠ '\'') (hslash : c ≠ '\\') (cs : List Char) :
    stringTail? (c :: cs) = (stringTail? cs).map fun (value, rest) => (c :: value, rest) := by
  rw [stringTail?]
  · exact fun _ h => absurd h hquote
  · exact hquote
  · exact fun _ _ h => absurd h hslash

/-- What stands for a character takes at most two characters with its quotes doubled. -/
theorem length_doubled_unescaped_le (c : Char) : (doubled '\'' (unescaped c)).length ≤ 2 := by
  have hone : (doubled '\'' [c]).length ≤ 2 := by
    rw [doubled_cons]
    split <;> simp [doubled]
  unfold unescaped
  split
  all_goals first | decide | exact hone

/-- A string takes as many characters as its value does with its quotes written twice, or more. -/
theorem length_le_of_stringTail? (h : stringTail? cs = some (value, rest)) :
    (doubled '\'' value).length + 1 + rest.length ≤ cs.length := by
  fun_induction stringTail? cs generalizing value with
  | case1 => cases h
  | case2 cs ih =>
      obtain ⟨⟨v, rest⟩, hv, heq⟩ := Option.map_eq_some_iff.mp h
      cases heq
      have := ih hv
      rw [doubled_cons, if_pos rfl, List.length_append]
      simp only [List.length_cons, List.length_nil]
      omega
  | case3 cs =>
      cases h
      simp [doubled]
      omega
  | case4 c cs ih =>
      obtain ⟨⟨v, rest⟩, hv, heq⟩ := Option.map_eq_some_iff.mp h
      cases heq
      have := ih hv
      have := length_doubled_unescaped_le c
      have happend : doubled '\'' (unescaped c ++ v) =
          doubled '\'' (unescaped c) ++ doubled '\'' v := List.flatMap_append
      rw [happend, List.length_append]
      simp only [List.length_cons]
      omega
  | case5 c cs _ hquote _ ih =>
      obtain ⟨⟨v, rest⟩, hv, heq⟩ := Option.map_eq_some_iff.mp h
      cases heq
      have := ih hv
      rw [doubled_cons, if_neg hquote, List.length_append]
      simp only [List.length_cons, List.length_nil]
      omega

/-- Before anything but a percent sign and an underscore a backslash is gone, and one character
comes of both. -/
theorem unescaped_eq_singleton (h : ¬ (c = '%' ∨ c = '_')) : ∃ d, unescaped c = [d] := by
  unfold unescaped
  split
  all_goals first | exact ⟨_, rfl⟩ | exact absurd (by decide) h

theorem map_eq_some_cons_iff {o : Option (List Char × List Char)} {us : List Char} :
    (o.map fun (value, rest) => (us ++ value, rest)) = some (us ++ cs, rest) ↔
      o = some (cs, rest) := by
  rcases o with _ | ⟨value, rest'⟩ <;> simp

/-- After a backslash that is inert the rest is read as it is; any other one is lost. -/
theorem stringTail?_slash_iff :
    stringTail? ('\\' :: (doubled '\'' cs ++ '\'' :: rest)) = some ('\\' :: cs, rest) ↔
      (∃ d ∈ cs.head?, d = '%' ∨ d = '_') ∧
        stringTail? (doubled '\'' cs ++ '\'' :: rest) = some (cs, rest) := by
  obtain ⟨d, ds, hds⟩ : ∃ d ds, doubled '\'' cs ++ '\'' :: rest = d :: ds := by
    cases doubled '\'' cs <;> exact ⟨_, _, rfl⟩
  have hlength := congrArg List.length hds
  rw [List.length_append, List.length_cons, List.length_cons] at hlength
  rw [hds, stringTail?]
  by_cases hinert : d = '%' ∨ d = '_'
  · -- the character after the backslash is the first one of the rest
    obtain ⟨hquote, hslash, htaken⟩ : d ≠ '\'' ∧ d ≠ '\\' ∧ unescaped d = ['\\', d] := by
      rcases hinert with rfl | rfl <;> decide
    obtain ⟨cs, rfl⟩ : ∃ cs', cs = d :: cs' := by
      cases cs with
      | nil => exact absurd (List.cons.inj hds).1.symm hquote
      | cons c cs =>
          rw [doubled_cons] at hds
          split at hds
          next => exact absurd (List.cons.inj hds).1.symm hquote
          next => exact ⟨cs, by rw [(List.cons.inj hds).1]⟩
    have hhead : ∃ c ∈ (d :: cs).head?, c = '%' ∨ c = '_' := ⟨d, rfl, hinert⟩
    rw [htaken, stringTail?_cons hquote hslash, and_iff_right hhead]
    exact (@map_eq_some_cons_iff cs rest _ ['\\', d]).trans
      (@map_eq_some_cons_iff cs rest _ [d]).symm
  · -- what the backslash takes along is one character less, so the value cannot be all of the text
    obtain ⟨e, he⟩ := unescaped_eq_singleton hinert
    refine iff_of_false (fun h => ?_) fun ⟨⟨c, hc, hpercent⟩, _⟩ => ?_
    · rw [he] at h
      obtain ⟨⟨value, rest'⟩, hvalue, heq⟩ := Option.map_eq_some_iff.mp h
      have hcons : value = cs := (List.cons.inj (congrArg Prod.fst heq)).2
      have hrest : rest' = rest := congrArg Prod.snd heq
      rw [hcons, hrest] at hvalue
      have := length_le_of_stringTail? hvalue
      omega
    · cases cs with
      | nil => cases hc
      | cons c' cs =>
          cases hc
          rw [doubled_cons, if_neg (by rcases hpercent with rfl | rfl <;> decide)] at hds
          exact hinert ((List.cons.inj hds).1 ▸ hpercent)

/-- **A text in quotes is read as itself** exactly if it is inert. -/
theorem stringTail?_doubled_iff (hrest : rest.head? ≠ some '\'') :
    stringTail? (doubled '\'' cs ++ '\'' :: rest) = some (cs, rest) ↔ IsInert cs := by
  induction cs with
  | nil => exact iff_of_true (stringTail?_close hrest) isInert_nil
  | cons c cs ih =>
      rw [isInert_cons_iff, ← ih]
      by_cases hslash : c = '\\'
      · subst hslash
        exact stringTail?_slash_iff.trans (by simp)
      · have hcons : (c = '\\' → ∃ d ∈ cs.head?, d = '%' ∨ d = '_') ↔ True :=
          iff_of_true (fun h => absurd h hslash) trivial
        rw [hcons, true_and]
        by_cases hquote : c = '\''
        · subst hquote
          show (stringTail? (doubled '\'' cs ++ '\'' :: rest)).map _ = _ ↔ _
          exact @map_eq_some_cons_iff cs rest _ ['\'']
        · rw [doubled_cons, if_neg hquote, List.singleton_append, List.cons_append,
            stringTail?_cons hquote hslash]
          exact @map_eq_some_cons_iff cs rest _ [c]

end MySql

/-! ### Where a default is written -/

/-- The expression stands in the text as a default, and no quote comes right after it. -/
def ShowsDefault (e : Expression) (text : String) : Prop :=
  ∃ before after : String, text = before ++ " DEFAULT " ++ e.render ++ after ∧
    after.toList.head? ≠ some '\''

namespace ShowsDefault

variable {e : Expression} {text : String}

theorem append_left (h : ShowsDefault e text) (us : String) : ShowsDefault e (us ++ text) := by
  obtain ⟨before, after, rfl, hafter⟩ := h
  exact ⟨us ++ before, after, by simp only [String.append_assoc], hafter⟩

theorem append_right (h : ShowsDefault e text) {us : String} (hus : us.toList.head? ≠ some '\'') :
    ShowsDefault e (text ++ us) := by
  obtain ⟨before, after, rfl, hafter⟩ := h
  refine ⟨before, after ++ us, by simp only [String.append_assoc], ?_⟩
  rw [String.toList_append, List.head?_append]
  cases hhead : after.toList.head? with
  | none => exact hus
  | some c => rw [hhead] at hafter; exact hafter

/-- What stands in one of several texts stands in them together, if no quote separates them. -/
theorem intercalate {sep : String} {texts : List String} (hsep : sep.toList.head? ≠ some '\'')
    (hne : sep.toList ≠ []) (h : ∃ text ∈ texts, ShowsDefault e text) :
    ShowsDefault e (sep.intercalate texts) := by
  obtain ⟨text, hmem, h⟩ := h
  induction texts with
  | nil => cases hmem
  | cons t ts ih =>
      cases ts with
      | nil =>
          obtain rfl := List.mem_singleton.mp hmem
          rw [String.intercalate_singleton]
          exact h
      | cons t' ts =>
          rw [String.intercalate_cons_cons, String.append_assoc]
          rcases List.mem_cons.mp hmem with rfl | hmem
          · refine h.append_right ?_
            rw [String.toList_append, List.head?_append_of_ne_nil _ hne]
            exact hsep
          · exact ((ih hmem).append_left sep).append_left t

end ShowsDefault

/-- A declared column shows its default. -/
theorem ColumnDefinition.showsDefault {c : ColumnDefinition} {e : Expression} {s : Style}
    (h : c.default = some e) : ShowsDefault e (c.render s) := by
  unfold render
  rw [h]
  dsimp only
  refine ⟨s.name c.name ++ " " ++ c.type ++ (if c.isKey then " PRIMARY KEY" else "") ++
    c.identity ++ (if c.isUnique then " UNIQUE" else ""),
    if c.isNotNull then " NOT NULL" else "", by simp only [String.append_assoc], ?_⟩
  cases c.isNotNull <;> decide

namespace Field

/-- The statements in which the column of a field is written with its default. -/
inductive IsWrittenBy (f : Field) (d : Dialect) : Statement → Prop
  | created {model table : String} {c : ColumnDefinition} {elements : List TableElement}
      (defined : (f.definition d model).outcome = .ok c) (listed : .column c ∈ elements) :
      IsWrittenBy f d (.createTable table elements)
  | added {model table : String} {c : ColumnDefinition}
      (defined : (f.definition d model).outcome = .ok c) : IsWrittenBy f d (.addColumn table c)
  | restated {model table : String} {c : ColumnDefinition}
      (defined : (f.restatement d model).outcome = .ok c) :
      IsWrittenBy f d (.modifyColumn table c)
  | set {model table column : String} {e : Option Expression}
      (written : (f.defaultExpression d model).outcome = .ok e) :
      IsWrittenBy f d (.setDefault table column e)

variable {f : Field} {d : Dialect}

/-- Wherever the column is written, its default is. -/
theorem showsDefault_of_isWrittenBy {e : Expression} (he : f.storedDefault d = some e)
    (hidentity : f.isIdentity = false) {st : Statement} (h : f.IsWrittenBy d st) (s : Style) :
    ShowsDefault e (st.render s) := by
  have hdeclared : (f.declaration d).default = some e := by
    rw [declaration, hidentity]
    exact he
  cases h with
  | @created model table c elements defined listed =>
      obtain ⟨-, -, rfl⟩ := definition_ok_iff.mp defined
      have helement : ShowsDefault e (TableElement.render s (.column (f.declaration d))) :=
        ColumnDefinition.showsDefault hdeclared
      have hlist : ShowsDefault e (",\n  ".intercalate (elements.map (·.render s))) :=
        ShowsDefault.intercalate (by decide) (by decide)
          ⟨_, List.mem_map_of_mem listed, helement⟩
      exact (hlist.append_left _).append_right (by decide)
  | added defined =>
      obtain ⟨-, -, rfl⟩ := definition_ok_iff.mp defined
      exact ((ColumnDefinition.showsDefault hdeclared).append_left _).append_right (by decide)
  | restated defined =>
      obtain ⟨-, -, rfl⟩ := restatement_ok_iff.mp defined
      have hrestated : (f.restated d).default = some e := he
      exact ((ColumnDefinition.showsDefault hrestated).append_left _).append_right (by decide)
  | @set model table column e' written =>
      obtain ⟨-, rfl⟩ := defaultExpression_ok_iff.mp written
      rw [he]
      refine ⟨s.alterColumn table column ++ "SET", ";", ?_, by decide⟩
      show s.alterColumn table column ++ ("SET DEFAULT " ++ e.render) ++ ";" = _
      rw [show "SET DEFAULT " = "SET" ++ " DEFAULT " by decide]
      simp only [String.append_assoc]

/-- **A text that is the default of a column** is always accepted, and is written between quotes
wherever the column is: in a new table, as a new column, where the column is restated and where its
default is set.  From there MySQL reads exactly that text, and goes on right after it, exactly if the
text is inert. -/
theorem mysqlText_iff {k : Scalar} {text : String} (hscalar : f.scalar? = some k)
    (hk : k ∈ [Scalar.string, .date, .datetime, .json])
    (hdefault : f.default = some (.literal (.text text))) :
    (∀ model, (f.defaultExpression .mysql model).outcome = .ok (some (.quoted text))) ∧
      ∀ (s : Style) (st : Statement), f.IsWrittenBy .mysql st → ∃ before after : String,
        st.render s = before ++ " DEFAULT " ++ (Expression.quoted text).render ++ after ∧
          (MySql.string? ((Expression.quoted text).render ++ after).toList =
            some (text.toList, after.toList) ↔ MySql.IsInert text.toList) := by
  have hstored : f.storedDefault .mysql = some (.quoted text) := by
    rw [storedDefault, hdefault]
    rfl
  have hfits : f.Fits := fun v hv => by
    rw [hdefault] at hv
    cases hv
    rw [hscalar, Option.bind_some]
    simp only [List.mem_cons, List.not_mem_nil, or_false] at hk
    rcases hk with rfl | rfl | rfl | rfl <;> rfl
  have hidentity : f.isIdentity = false := by simp [isIdentity, isAutoincrement, hdefault]
  refine ⟨fun model => defaultExpression_ok_iff.mpr ⟨hfits, hstored.symm⟩, fun s st h => ?_⟩
  obtain ⟨before, after, hrender, hafter⟩ := showsDefault_of_isWrittenBy hstored hidentity h s
  refine ⟨before, after, hrender, ?_⟩
  have htext : ((Expression.quoted text).render ++ after).toList =
      '\'' :: (doubled '\'' text.toList ++ '\'' :: after.toList) := by
    simp [Expression.render, enclosed]
  rw [htext]
  exact MySql.stringTail?_doubled_iff hafter

/-- A column with quotes in its default, and with backslashes that are inert. -/
def discountNote : Field :=
  { name := "note", typeName := "string"
    default := some (.literal (.text "it's 50\\% or '\\_'")) }

/-- It is read as it is where it is set. -/
theorem discountNote_read :
    (discountNote.defaultExpression .mysql "offer").outcome =
        .ok (some (.quoted "it's 50\\% or '\\_'")) ∧
      ∃ before after : String,
        Statement.render ⟨.mysql, false⟩
            (.setDefault "offer" "note" (some (.quoted "it's 50\\% or '\\_'"))) =
          before ++ " DEFAULT " ++ (Expression.quoted "it's 50\\% or '\\_'").render ++ after ∧
        MySql.string? ((Expression.quoted "it's 50\\% or '\\_'").render ++ after).toList =
          some ("it's 50\\% or '\\_'".toList, after.toList) := by
  obtain ⟨hdefault, hwritten⟩ := @mysqlText_iff discountNote .string "it's 50\\% or '\\_'"
    (by decide) (by decide) rfl
  have hinert : MySql.IsInert "it's 50\\% or '\\_'".toList := by decide
  obtain ⟨before, after, hrender, hread⟩ :=
    hwritten ⟨.mysql, false⟩ _ (.set (hdefault "offer"))
  exact ⟨hdefault "offer", before, after, hrender, hread.mpr hinert⟩

/-- A column whose default begins with a backslash before a quote. -/
def droppingNote : Field :=
  { name := "note", typeName := "string"
    default := some (.literal (.text "\\'; DROP TABLE offer; -- ")) }

/-- What is read of its default is the quote alone, and after it another statement. -/
theorem droppingNote_read :
    (droppingNote.defaultExpression .mysql "offer").outcome =
        .ok (some (.quoted "\\'; DROP TABLE offer; -- ")) ∧
      MySql.string? ((Expression.quoted "\\'; DROP TABLE offer; -- ").render ++ ";").toList =
        some ("'".toList, "; DROP TABLE offer; -- ';".toList) :=
  ⟨rfl, by decide⟩

end Field

end Schemata
