import Schemata.Proofs.Database.Alteration

/-!
# Proofs — databases — defaults of altered columns

Of which type a column is when its default is set.  A literal is checked against the type of the
new field.  Where MySQL restates a column, the column has this type by then; everywhere else a
default is set before the type is changed, so that a new literal meets a column of the old type
(`Plan.setDefault_hasType_iff`).
-/

namespace Schemata

/-- The column is there, and is of the type. -/
def Database.HasType (db : Database) (table column type : String) : Prop :=
  ∃ t c, db table = some t ∧ t column = some c ∧ c.type = type

theorem Database.hasType_update_iff {db : Database} {t : TableState} {c : ColumnState}
    {table column type : String} :
    Database.HasType (Function.update db table (some (Function.update t column (some c)))) table
      column type ↔ c.type = type := by
  simp [HasType]

/-- The statement sets a default, or takes it away. -/
def Statement.IsDefault : Statement → Prop
  | .setDefault _ _ _ => True
  | _ => False

/-- Where one member of a list alone is of a kind, the list can be split at such a member in one way
only. -/
theorem eq_of_append_cons_eq {α : Type} {p : α → Prop} {xs ys pre post : List α} {x y : α}
    (h : xs ++ x :: ys = pre ++ y :: post) (hy : p y) (hxs : ∀ z ∈ xs, ¬ p z)
    (hys : ∀ z ∈ ys, ¬ p z) : pre = xs ∧ y = x := by
  induction xs generalizing pre with
  | nil =>
      cases pre with
      | nil => exact ⟨rfl, (List.cons.inj h).1.symm⟩
      | cons z pre =>
          obtain ⟨-, rfl⟩ := List.cons.inj h
          exact absurd hy (hys y (List.mem_append_right _ List.mem_cons_self))
  | cons z xs ih =>
      obtain ⟨hz, hxs⟩ := List.forall_mem_cons.mp hxs
      cases pre with
      | nil =>
          obtain ⟨rfl, -⟩ := List.cons.inj h
          exact absurd hy hz
      | cons w pre =>
          obtain ⟨rfl, htail⟩ := List.cons.inj h
          obtain ⟨rfl, rfl⟩ := ih htail hxs
          exact ⟨rfl, rfl⟩

namespace Plan

variable {d : Dialect} {table : String} {old new : Field}

/-- The changes of a column that come before those of its default. -/
def beforeDefault (d : Dialect) (table : String) (old new : Field) : List Statement :=
  alterNullability d table old new ++
    (if restates d old new then [.modifyColumn table (new.restated d)] else [])

/-- The changes of a column that come after those of its default. -/
def afterDefault (d : Dialect) (table : String) (old new : Field) : List Statement :=
  typeChanges d table old new ++ alterUniqueness (.addUnique table new.name) old new

theorem inPlace_eq : inPlace d table old new = beforeDefault d table old new ++
    (defaultChanges d table old new ++ afterDefault d table old new) := by
  simp [inPlace, beforeDefault, afterDefault]

/-- None of the changes before those of the default sets one. -/
theorem not_isDefault_of_mem_beforeDefault {st : Statement}
    (h : st ∈ beforeDefault d table old new) : ¬ st.IsDefault := by
  simp only [beforeDefault, alterNullability, List.mem_append, List.mem_ite_nil_right,
    List.mem_singleton] at h
  rcases h with h | ⟨-, rfl⟩
  · split at h
    · rw [List.mem_singleton.mp h]
      exact id
    · rw [List.mem_ite_nil_right, List.mem_singleton] at h
      rw [h.2]
      exact id
  · exact id

theorem not_isDefault_of_mem_alterUniqueness {add st : Statement} (hadd : ¬ add.IsDefault)
    (h : st ∈ alterUniqueness add old new) : ¬ st.IsDefault := by
  simp only [alterUniqueness, List.mem_ite_nil_left] at h
  obtain ⟨-, h⟩ := h
  split at h
  · rwa [List.mem_singleton.mp h]
  · rw [List.mem_singleton.mp h]
    exact id

theorem not_isDefault_of_mem_afterDefault {st : Statement}
    (h : st ∈ afterDefault d table old new) : ¬ st.IsDefault := by
  rcases List.mem_append.mp h with h | h
  · rw [typeChanges, List.mem_ite_nil_right, List.mem_singleton] at h
    rw [h.2]
    exact id
  · exact not_isDefault_of_mem_alterUniqueness id h

/-- Nothing sets a default in a table that would have to be rebuilt. -/
theorem not_isDefault_of_mem_rebuilding {st : Statement}
    (h : st ∈ rebuilding d table old new) : ¬ st.IsDefault := by
  simp only [rebuilding, List.mem_append, List.mem_ite_nil_left, List.mem_ite_nil_right,
    List.mem_singleton] at h
  rcases h with (⟨-, rfl⟩ | ⟨-, rfl⟩) | h
  · exact id
  · exact id
  · exact not_isDefault_of_mem_alterUniqueness id h

/-- **Where a default is set.**  It is the new one, it is set only if it is another one than the old
one, and what comes before is known. -/
theorem eq_of_changes_eq {pre post : List Statement} {t c : String} {e : Option Expression}
    (h : changes d table old new = pre ++ .setDefault t c e :: post) :
    d ≠ .sqlite ∧ setsDefault old new = true ∧ pre = beforeDefault d table old new ∧
      t = table ∧ c = new.name ∧ e = new.storedDefault d := by
  have hmem : Statement.setDefault t c e ∈ changes d table old new := by simp [h]
  unfold changes at h hmem
  split at h
  next hd =>
      rw [if_pos hd] at hmem
      exact absurd trivial (not_isDefault_of_mem_rebuilding hmem)
  next hd =>
      rw [if_neg hd] at hmem
      rw [inPlace_eq] at h hmem
      cases hs : setsDefault old new with
      | true =>
          have hchanges : defaultChanges d table old new =
              [.setDefault table new.name (new.storedDefault d)] := by simp [defaultChanges, hs]
          rw [hchanges] at h
          obtain ⟨hpre, hst⟩ := eq_of_append_cons_eq (p := Statement.IsDefault) h trivial
            (fun _ => not_isDefault_of_mem_beforeDefault)
            (fun _ => not_isDefault_of_mem_afterDefault)
          cases hst
          exact ⟨hd, rfl, hpre, rfl, rfl, rfl⟩
      | false =>
          rcases List.mem_append.mp hmem with hmem | hmem
          · exact absurd trivial (not_isDefault_of_mem_beforeDefault hmem)
          rcases List.mem_append.mp hmem with hmem | hmem
          · simp [defaultChanges, hs] at hmem
          · exact absurd trivial (not_isDefault_of_mem_afterDefault hmem)

/-- Before its default is set, only a restatement has given the column its new type. -/
theorem beforeDefault_run :
    ∃ c, ColumnRun table new.name (beforeDefault d table old new) (old.state d) c ∧
      c.type = if restates d old new then new.storedType d else old.storedType d := by
  have hnull : ColumnRun table new.name (alterNullability d table old new) (old.state d) _ :=
    alterNullability_run rfl
  unfold beforeDefault
  cases hr : restates d old new with
  | true => exact ⟨_, hnull.append modifyColumn_run, rfl⟩
  | false => exact ⟨_, hnull.append (ColumnRun.nil _), rfl⟩

/-- **Of which type a column is when its default is set.**  Each kept column whose new default is
one for its type has its changes planned, and a new literal is set unless nothing can be altered in
place.  Whenever a default is set, the column is of the type of the new field, which a literal was
checked against, just if this is the old type too or the dialect is MySQL. -/
theorem setDefault_hasType_iff {d : Dialect} {table : String} {old new : Field}
    {before after : String} (hbefore : old.columnType d = .ok before)
    (hafter : new.columnType d = .ok after) (hfits : new.Fits) :
    ∃ stmts, (alterColumn d table old new).outcome = .ok stmts ∧
      (∀ v, new.default = some (.literal v) →
        (.setDefault table new.name (some v.written) ∈ stmts ↔
          d ≠ .sqlite ∧ setsDefault old new = true)) ∧
      ∀ pre t c e post, stmts = pre ++ .setDefault t c (some e) :: post →
        t = table ∧ c = new.name ∧
          ∀ (db : Database) s, db table = some s → s new.name = some (old.state d) →
            ∃ db', runAll pre db = some db' ∧
              (db'.HasType table new.name after ↔ d = .mysql ∨ before = after) := by
  obtain ⟨ho, rfl⟩ := Field.columnType_ok_iff.mp hbefore
  obtain ⟨hn, rfl⟩ := Field.columnType_ok_iff.mp hafter
  refine ⟨_, (alterColumn_ok_iff ho hn).mpr ⟨fun _ => hfits, rfl⟩, fun v hv => ⟨fun h => ?_, ?_⟩,
    fun pre t c e post h => ?_⟩
  · obtain ⟨pre, post, h⟩ := List.append_of_mem h
    obtain ⟨hd, hsets, -⟩ := eq_of_changes_eq h
    exact ⟨hd, hsets⟩
  · rintro ⟨hd, hsets⟩
    have hstored : new.storedDefault d = some v.written := by
      rw [Field.storedDefault, hv]
      rfl
    rw [changes, if_neg hd, inPlace_eq, defaultChanges, if_pos hsets, hstored]
    simp
  · obtain ⟨hd, -, rfl, rfl, rfl, -⟩ := eq_of_changes_eq h
    refine ⟨rfl, rfl, fun db s hdb hs => ?_⟩
    obtain ⟨state, hrun, htype⟩ := @beforeDefault_run d t old new
    refine ⟨_, hrun s hs db hdb, ?_⟩
    rw [Database.hasType_update_iff, htype]
    cases hr : restates d old new with
    | true => simp [eq_mysql_of_restates hr]
    | false =>
        by_cases hm : d = .mysql
        · subst hm
          simp [(eq_of_not_restates hr).1]
        · simp [hm]

/-- A column of states that are told in words. -/
def stateText (default : String) (isRequired : Bool) : Field :=
  { name := "state", typeName := "string", isRequired, default := some (.literal (.text default)) }

/-- The same column where states are numbered. -/
def stateNumber : Field :=
  { name := "state", typeName := "int", default := some (.literal (.int 1)) }

/-- Where the type stays, a new literal is set on a column of its type. -/
theorem stateText_hasType : (stateText "live" true).Fits ∧
    ∃ stmts, (alterColumn .postgres "post" (stateText "draft" false)
        (stateText "live" true)).outcome = .ok stmts ∧
      stmts = [.setNotNull "post" "state" true,
        .setDefault "post" "state" (some (.quoted "live"))] ∧
      ∀ (db : Database) s, db "post" = some s →
        s "state" = some ((stateText "draft" false).state .postgres) →
          ∃ db', runAll [.setNotNull "post" "state" true] db = some db' ∧
            db'.HasType "post" "state" "VARCHAR(255)" := by
  have hfits : (stateText "live" true).Fits := fun v hv => by cases hv; decide
  obtain ⟨stmts, houtcome, -, htype⟩ := @setDefault_hasType_iff .postgres "post"
    (stateText "draft" false) (stateText "live" true) _ _ rfl rfl hfits
  have hstmts : stmts = [.setNotNull "post" "state" true,
      .setDefault "post" "state" (some (.quoted "live"))] :=
    Except.ok.inj (houtcome.symm.trans (by with_unfolding_all rfl))
  obtain ⟨-, -, hrun⟩ := htype [.setNotNull "post" "state" true] _ _ _ [] hstmts
  refine ⟨hfits, stmts, houtcome, hstmts, fun db s hdb hs => ?_⟩
  obtain ⟨db', hdb', hiff⟩ := hrun db s hdb hs
  exact ⟨db', hdb', hiff.mpr (.inr rfl)⟩

/-- Where numbers become words, the first word is set on a column of numbers. -/
theorem stateNumber_hasType : stateNumber.Fits ∧ (stateText "live" false).Fits ∧
    stateNumber.isAutoincrement = false ∧ (stateText "live" false).isAutoincrement = false ∧
    (stateText "live" false).columnType .postgres = .ok "VARCHAR(255)" ∧
    (alterColumn .postgres "post" stateNumber (stateText "live" false)).outcome =
      .ok [.setDefault "post" "state" (some (.quoted "live")),
        .setType "post" "state" "VARCHAR(255)" false] ∧
    ∀ (db : Database) s, db "post" = some s → s "state" = some (stateNumber.state .postgres) →
      db.HasType "post" "state" "INTEGER" ∧ ¬ db.HasType "post" "state" "VARCHAR(255)" := by
  refine ⟨fun v hv => by cases hv; decide, fun v hv => by cases hv; decide, rfl, rfl, rfl,
    by with_unfolding_all rfl, fun db s hdb hs => ⟨⟨s, _, hdb, hs, rfl⟩, ?_⟩⟩
  rintro ⟨t, c, ht, hc, htype⟩
  cases hdb.symm.trans ht
  cases hs.symm.trans hc
  exact absurd htype (by decide)

end Plan

end Schemata
