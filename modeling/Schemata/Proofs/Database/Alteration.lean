import Schemata.Proofs.Database
import Schemata.Proofs.Plan.Statements
import Schemata.Proofs.Schema.Names

/-!
# Proofs — databases — altering a table

The database that a schema stands for (`Schema.state`), and what the changes of a kept column and
of a kept table make of it.  A kept column ends as `settled`: as the new field has it, except for
what a remark of the script leaves as it was.  `Plan.changes_run` is this for a column, and
`Plan.tableChanges_run` for a table; the columns of a table do not disturb each other, so the
second is a walk along the columns.
-/

namespace Schemata

/-- The column that a field stands for. -/
def Field.state (f : Field) (d : Dialect) : ColumnState :=
  { type := f.storedType d
    isNotNull := f.isNotNull
    default := f.storedDefault d
    isUnique := f.hasUniqueConstraint }

/-- The table that a model stands for. -/
def Model.state (m : Model) (d : Dialect) : TableState := fun column =>
  (Plan.columnNamed m column).map (·.state d)

/-- The database that a schema stands for. -/
def Schema.state (s : Schema) (d : Dialect) : Database := fun table =>
  (s.model? table).map (·.state d)

/-- If the column counts up, it holds integers, one each. -/
def Field.CountsInts (f : Field) : Prop :=
  f.isAutoincrement → f.scalar? = some .int ∧ f.isArray = false

namespace Field

/-- What is declared of a new column says what the field stands for. -/
theorem declaration_state {f : Field} (h : f.CountsInts) (d : Dialect) :
    (f.declaration d).state = f.state d := by
  unfold declaration
  split
  next hid =>
      obtain ⟨hid, hd⟩ := Bool.and_eq_true_iff.mp hid
      have hd := of_decide_eq_true hd
      obtain ⟨hkey, hdefault⟩ := default_of_isIdentity hid
      obtain ⟨hint, harray⟩ := h (by rw [isAutoincrement, hdefault]; rfl)
      simp [ColumnDefinition.state, state, storedType, storedDefault, hd, hint, harray, hkey,
        hdefault, Scalar.columnType, Scalar.nativeType, isNotNull, hasUniqueConstraint,
        Default.written?, Generator.expression?]
  next =>
      simp only [ColumnDefinition.state, state, if_neg (f.storedType_ne_serial d),
        ColumnState.mk.injEq, true_and]
      refine ⟨?_, rfl⟩
      unfold isNotNull
      cases f.isPrimaryKey <;> simp

/-- What is restated of a column says what the field stands for, but for uniqueness. -/
theorem restated_state (f : Field) (d : Dialect) :
    (f.restated d).state = { f.state d with isUnique := false } := by
  simp [restated, ColumnDefinition.state, state, f.storedType_ne_serial d]

end Field

/-- The columns that are declared of a model's table are those of its fields. -/
theorem Model.columnsOf_elements (m : Model) (d : Dialect) :
    columnsOf (m.elements d) = m.columns.map (·.declaration d) := by
  have hkeys : columnsOf (m.fields.filterMap Plan.foreignKey?) = [] := by
    unfold columnsOf
    rw [List.filterMap_eq_nil_iff]
    intro e he
    obtain ⟨f, -, hf⟩ := List.mem_filterMap.mp he
    unfold Plan.foreignKey? at hf
    split at hf <;> cases hf
    rfl
  have huniques : columnsOf (m.uniques.map .unique) = [] := by
    unfold columnsOf
    rw [List.filterMap_eq_nil_iff]
    intro e he
    obtain ⟨u, -, rfl⟩ := List.mem_map.mp he
    rfl
  have hcolumns : columnsOf ((m.columns.map (·.declaration d)).map .column) =
      m.columns.map (·.declaration d) := by
    unfold columnsOf
    rw [List.filterMap_map]
    exact List.filterMap_some
  unfold columnsOf at hkeys huniques hcolumns ⊢
  unfold elements
  rw [List.filterMap_append, List.filterMap_append, hkeys, huniques, hcolumns, List.append_nil,
    List.append_nil]

/-! ### Altering one table, one column -/

/-- Statements that make one thing of a table, and change nothing else. -/
def TableRun (table : String) (stmts : List Statement) (t t' : TableState) : Prop :=
  ∀ db : Database, db table = some t →
    runAll stmts db = some (Function.update db table (some t'))

/-- Statements that make one thing of a column, and change nothing else. -/
def ColumnRun (table column : String) (stmts : List Statement) (c c' : ColumnState) : Prop :=
  ∀ t : TableState, t column = some c →
    TableRun table stmts t (Function.update t column (some c'))

namespace TableRun

variable {table : String}

theorem nil (t : TableState) : TableRun table [] t t := fun db h => by
  rw [runAll_nil, ← h, Function.update_eq_self]

theorem append {xs ys : List Statement} {t t' t'' : TableState} (h : TableRun table xs t t')
    (h' : TableRun table ys t' t'') : TableRun table (xs ++ ys) t t'' := fun db hdb => by
  refine runAll_append (h db hdb) ?_
  rw [h' _ (Function.update_self ..), Function.update_idem]

/-- A statement that alters the table. -/
theorem alter {st : Statement} {f : TableState → Option TableState} {t t' : TableState}
    (h : ∀ db, st.run db = db.alter table f) (hf : f t = some t') : TableRun table [st] t t' :=
  fun db hdb => by rw [runAll_singleton, h, Store.alter_eq hdb hf]

end TableRun

namespace ColumnRun

variable {table column : String} {c c' c'' : ColumnState}

theorem nil (c : ColumnState) : ColumnRun table column [] c c := fun t h => by
  rw [← h, Function.update_eq_self]
  exact TableRun.nil t

theorem append {xs ys : List Statement} (h : ColumnRun table column xs c c')
    (h' : ColumnRun table column ys c' c'') : ColumnRun table column (xs ++ ys) c c'' :=
  fun t ht => by
    refine (h t ht).append ?_
    have := h' _ (Function.update_self column (some c') t)
    rwa [Function.update_idem] at this

/-- A statement that alters the column. -/
theorem alter {st : Statement} {f : ColumnState → ColumnState}
    (h : ∀ db, st.run db = db.alter table fun t => t.alter column fun c => some (f c))
    (c : ColumnState) : ColumnRun table column [st] c (f c) := fun _ ht =>
  TableRun.alter h (Store.alter_eq ht rfl)

theorem warning (w : Warning) (c : ColumnState) : ColumnRun table column [.warning w] c c :=
  fun t ht db hdb => by
    rw [runAll_singleton, ← ht, Function.update_eq_self, ← hdb, Function.update_eq_self]
    rfl

end ColumnRun

namespace Plan

/-! ### A kept column -/

/-- A kept column after its changes.  Where nothing can be altered in place, all but uniqueness
stays.  Elsewhere, unless the column is restated as a whole, a key goes on holding no null, and a
default stays that is the same by value or that counts up on either side.  A unique column stays
unique. -/
def settled (d : Dialect) (old new : Field) : ColumnState :=
  { type := if d = .sqlite then old.storedType d else new.storedType d
    isNotNull :=
      if d = .sqlite || (weakensKey old new && !restates d old new) then old.isNotNull
      else new.isNotNull
    default :=
      if d != .sqlite && (restates d old new || setsDefault old new) then new.storedDefault d
      else old.storedDefault d
    isUnique := old.hasUniqueConstraint || new.hasUniqueConstraint }

section

variable {table : String} {d : Dialect} {old new : Field} {c : ColumnState}

/-- After a change of uniqueness the column is unique if it was, or if it is to be. -/
theorem alterUniqueness_run {add : Statement}
    (h : ∀ db, add.run db = db.alter table fun t => t.alter new.name fun c =>
      some { c with isUnique := true })
    (hc : c.isUnique = old.hasUniqueConstraint) :
    ColumnRun table new.name (alterUniqueness add old new) c
      { c with isUnique := old.hasUniqueConstraint || new.hasUniqueConstraint } := by
  obtain ⟨type, isNotNull, default, isUnique⟩ := c
  obtain rfl : isUnique = old.hasUniqueConstraint := hc
  unfold alterUniqueness
  cases old.hasUniqueConstraint <;> cases new.hasUniqueConstraint
  · exact ColumnRun.nil _
  · exact ColumnRun.alter h _
  · exact ColumnRun.warning _ _
  · exact ColumnRun.nil _

/-- After a change of nullability the column is nullable as it is wanted, or as it was. -/
theorem alterNullability_run (hc : c.isNotNull = old.isNotNull) :
    ColumnRun table new.name (alterNullability d table old new) c
      { c with isNotNull :=
          if d = .mysql || weakensKey old new then old.isNotNull else new.isNotNull } := by
  obtain ⟨type, isNotNull, default, isUnique⟩ := c
  obtain rfl : isNotNull = old.isNotNull := hc
  unfold alterNullability
  cases weakensKey old new with
  | true => simpa using ColumnRun.warning _ _
  | false =>
      by_cases hd : d = .mysql
      · simpa [hd] using ColumnRun.nil _
      · by_cases hn : old.isNotNull = new.isNotNull
        · simpa [hd, hn] using ColumnRun.nil _
        · have set : ColumnRun table new.name [.setNotNull table new.name new.isNotNull] _ _ :=
            ColumnRun.alter (fun _ => rfl) ⟨type, old.isNotNull, default, isUnique⟩
          simpa [hd, hn] using set

/-- After a change of the default the column has the default that is wanted, or the one it had. -/
theorem defaultChanges_run :
    ColumnRun table new.name (defaultChanges d table old new) c
      { c with default := if setsDefault old new then new.storedDefault d else c.default } := by
  unfold defaultChanges
  cases setsDefault old new with
  | true =>
      have set : ColumnRun table new.name [.setDefault table new.name (new.storedDefault d)] _ _ :=
        ColumnRun.alter (fun _ => rfl) c
      exact set
  | false =>
      cases Default.sameOption old.default new.default with
      | true => exact ColumnRun.nil c
      | false => exact ColumnRun.warning _ c

theorem modifyColumn_run :
    ColumnRun table new.name [.modifyColumn table (new.restated d)] c
      { new.state d with isUnique := c.isUnique } := by
  have set : ColumnRun table new.name [.modifyColumn table (new.restated d)] _ _ :=
    ColumnRun.alter (fun _ => rfl) c
  rwa [new.restated_state] at set

/-- After a change of type the column has the type that is wanted, or the one it had. -/
theorem typeChanges_run (hc : d ≠ .mysql → c.type = old.storedType d) :
    ColumnRun table new.name (typeChanges d table old new) c
      { c with type := if d = .mysql then c.type else new.storedType d } := by
  unfold typeChanges
  by_cases hd : d = .mysql
  · simpa [hd] using ColumnRun.nil c
  · obtain ⟨type, isNotNull, default, isUnique⟩ := c
    obtain rfl : type = old.storedType d := hc hd
    by_cases ht : old.storedType d = new.storedType d
    · simpa [hd, ht] using ColumnRun.nil _
    · have set : ColumnRun table new.name [.setType table new.name (new.storedType d)
          (d = .postgres && new.typeName == Scalar.json.name)] _ _ :=
        ColumnRun.alter (fun _ => rfl) ⟨old.storedType d, isNotNull, default, isUnique⟩
      simpa [hd, ht] using set

/-- Where columns cannot be altered in place, only uniqueness changes. -/
theorem rebuilding_run :
    ColumnRun table new.name (rebuilding .sqlite table old new) (old.state .sqlite)
      (settled .sqlite old new) := by
  unfold rebuilding
  have key : ColumnRun table new.name
      (if weakensKey old new then [.warning (.keyMayNotBeNull new.name)] else [])
      (old.state .sqlite) (old.state .sqlite) := by
    split
    · exact ColumnRun.warning _ _
    · exact ColumnRun.nil _
  have rest : ColumnRun table new.name
      (if (unalterable .sqlite old new).isEmpty then []
        else [.warning (.unalterable (unalterable .sqlite old new) table new.name)])
      (old.state .sqlite) (old.state .sqlite) := by
    split
    · exact ColumnRun.nil _
    · exact ColumnRun.warning _ _
  exact (key.append rest).append (alterUniqueness_run (fun _ => rfl) rfl)

/-- Only MySQL restates a column. -/
theorem eq_mysql_of_restates (h : restates d old new = true) : d = .mysql :=
  of_decide_eq_true (Bool.and_eq_true_iff.mp h).1

/-- Where MySQL restates nothing, the type is the same, and so is what is said of nulls unless a
key would hold them. -/
theorem eq_of_not_restates (h : restates .mysql old new = false) :
    old.storedType .mysql = new.storedType .mysql ∧
      (weakensKey old new = false → old.isNotNull = new.isNotNull) := by
  simp only [restates, decide_true, Bool.true_and, Bool.or_eq_false_iff, bne_eq_false_iff_eq] at h
  obtain ⟨htype, hnull⟩ := h
  refine ⟨htype, fun hw => ?_⟩
  simpa [hw] using hnull

/-- **A column that is altered in place** is settled. -/
theorem inPlace_run (hd : d ≠ .sqlite) :
    ColumnRun table new.name (inPlace d table old new) (old.state d) (settled d old new) := by
  have hnull : ColumnRun table new.name (alterNullability d table old new) (old.state d) _ :=
    alterNullability_run rfl
  have hmodify : ∀ c, ColumnRun table new.name [.modifyColumn table (new.restated d)] c _ :=
    fun c => modifyColumn_run
  have hdefault : ∀ c, ColumnRun table new.name (defaultChanges d table old new) c _ :=
    fun c => defaultChanges_run
  have htype : ∀ c : ColumnState, (d ≠ .mysql → c.type = old.storedType d) →
      ColumnRun table new.name (typeChanges d table old new) c _ := fun c hc => typeChanges_run hc
  have hunique : ∀ c : ColumnState, c.isUnique = old.hasUniqueConstraint →
      ColumnRun table new.name (alterUniqueness (.addUnique table new.name) old new) c _ :=
    fun c hc => alterUniqueness_run (fun _ => rfl) hc
  unfold inPlace
  cases hr : restates d old new with
  | true =>
      -- what the restatement says overrides what was said of nulls before
      obtain rfl := eq_mysql_of_restates hr
      have hchain := (((hnull.append (hmodify _)).append (hdefault _)).append
        (htype _ fun h => absurd rfl h)).append (hunique _ rfl)
      refine Eq.mp (congrArg _ ?_) hchain
      simp [settled, Field.state, hr]
  | false =>
      have hchain := (((hnull.append (ColumnRun.nil _)).append (hdefault _)).append
        (htype _ fun _ => rfl)).append (hunique _ rfl)
      refine Eq.mp (congrArg _ ?_) hchain
      by_cases hm : d = .mysql
      · subst hm
        obtain ⟨hsame, hkept⟩ := eq_of_not_restates hr
        cases hw : weakensKey old new with
        | true => simp [settled, Field.state, hr, hw, hsame]
        | false => simp [settled, Field.state, hr, hw, hsame, hkept hw]
      · simp [settled, Field.state, hr, hm, hd]

/-- **A kept column** ends as `settled` says. -/
theorem changes_run :
    ColumnRun table new.name (changes d table old new) (old.state d) (settled d old new) := by
  unfold changes
  split
  next h => rw [h]; exact rebuilding_run
  next h => exact inPlace_run h

end

/-! ### A kept table -/

/-- A kept table after its changes: the wanted columns, each as it was settled or as it is new. -/
def settledTable (d : Dialect) (before after : Model) : TableState := fun column =>
  (columnNamed after column).map fun f =>
    match columnNamed before column with
    | some old => settled d old f
    | none => f.state d

/-- What is asked for a wanted column settles it, or adds it. -/
theorem reach_run {d : Dialect} {before after : Model} {f : Field} (hf : f ∈ after.columns)
    (hnames : (after.fields.map Field.name).Nodup) (hcounts : f.CountsInts) {t : TableState}
    (ht : t f.name = before.state d f.name) :
    TableRun after.name (reach d before after f) t
      (Function.update t f.name (settledTable d before after f.name)) := by
  have hafter : columnNamed after f.name = some f :=
    (columnNamed_eq_some_iff hnames).mpr ⟨hf, rfl⟩
  unfold reach settledTable
  unfold Model.state at ht
  rw [hafter]
  cases hold : columnNamed before f.name with
  | some old =>
      rw [hold] at ht
      exact changes_run t ht
  | none =>
      rw [hold] at ht
      have hadd : (fun t : TableState => t.add (f.declaration d).name (f.declaration d).state) t =
          some (Function.update t f.name (some (f.state d))) := by
        rw [f.declaration_name, Field.declaration_state hcounts]
        exact Store.add_eq ht _
      exact TableRun.alter (fun _ => rfl) hadd

/-- **The wanted columns of a kept table** are settled or new, and the others stay as they were. -/
theorem reachAll_run (d : Dialect) (before : Model) {after : Model}
    (hnames : (after.fields.map Field.name).Nodup) (hcounts : ∀ f ∈ after.columns, f.CountsInts) :
    ∃ t, TableRun after.name (after.columns.flatMap (reach d before after)) (before.state d) t ∧
      (∀ f ∈ after.columns, t f.name = settledTable d before after f.name) ∧
      ∀ column ∉ after.columns.map Field.name, t column = before.state d column :=
  Store.walk TableRun.nil TableRun.append
    (fun f hf _ ht => reach_run hf hnames (hcounts f hf) ht) (Model.columns_nodup hnames)
    (fun _ _ => rfl)

theorem dropColumns_run (table : String) {fields : List Field}
    (hnames : (fields.map Field.name).Nodup) {t : TableState}
    (hthere : ∀ f ∈ fields, (t f.name).isSome) :
    ∃ t', TableRun table (fields.map fun f => .dropColumn table f.name) t t' ∧
      (∀ f ∈ fields, t' f.name = none) ∧ ∀ column ∉ fields.map Field.name, t' column = t column := by
  rw [List.map_eq_flatMap]
  refine Store.walk TableRun.nil TableRun.append (fun f hf s hs => ?_) hnames (fun _ _ => rfl)
  obtain ⟨c, hc⟩ := Option.isSome_iff_exists.mp (hthere f hf)
  exact TableRun.alter (fun _ => rfl) (Store.remove_eq (hs.trans hc))

/-- **A kept table** ends with its wanted columns. -/
theorem tableChanges_run {d : Dialect} {before after : Model}
    (hbefore : (before.fields.map Field.name).Nodup)
    (hafter : (after.fields.map Field.name).Nodup) (hcounts : ∀ f ∈ after.columns, f.CountsInts) :
    TableRun after.name (tableChanges d before after) (before.state d)
      (settledTable d before after) := by
  obtain ⟨t₁, hrun₁, hreached, hframe₁⟩ := reachAll_run d before hafter hcounts
  have hgone : ∀ f ∈ droppedColumns before after,
      f ∈ before.columns ∧ f.name ∉ after.columns.map Field.name := fun f hf => by
    obtain ⟨hf, hnone⟩ := List.mem_filter.mp hf
    exact ⟨hf, (columnNamed_eq_none_iff hafter).mp (Option.isNone_iff_eq_none.mp hnone)⟩
  have hthere : ∀ f ∈ droppedColumns before after, (t₁ f.name).isSome := fun f hf => by
    obtain ⟨hf, hnot⟩ := hgone f hf
    rw [hframe₁ _ hnot, Model.state, (columnNamed_eq_some_iff hbefore).mpr ⟨hf, rfl⟩]
    rfl
  obtain ⟨t₂, hrun₂, hdropped, hframe₂⟩ := dropColumns_run after.name
    ((Model.columns_nodup hbefore).sublist (List.filter_sublist.map Field.name)) hthere
  -- what is in neither list was no column before, and is none after
  have hend : t₂ = settledTable d before after := by
    funext column
    by_cases hwanted : column ∈ after.columns.map Field.name
    · obtain ⟨f, hf, rfl⟩ := List.mem_map.mp hwanted
      have hkept : f.name ∉ (droppedColumns before after).map Field.name := fun h => by
        obtain ⟨g, hg, hname⟩ := List.mem_map.mp h
        exact (hgone g hg).2 (hname ▸ hwanted)
      rw [hframe₂ _ hkept, hreached f hf]
    · have hnone : columnNamed after column = none := (columnNamed_eq_none_iff hafter).mpr hwanted
      rw [settledTable, hnone, Option.map_none]
      by_cases hdrop : column ∈ (droppedColumns before after).map Field.name
      · obtain ⟨f, hf, rfl⟩ := List.mem_map.mp hdrop
        exact hdropped f hf
      · rw [hframe₂ _ hdrop, hframe₁ _ hwanted, Model.state, Option.map_eq_none_iff,
          columnNamed_eq_none_iff hbefore]
        intro hold
        obtain ⟨f, hf, rfl⟩ := List.mem_map.mp hold
        exact hdrop (List.mem_map_of_mem (List.mem_filter.mpr ⟨hf, by rw [hnone]; rfl⟩))
  exact hend ▸ hrun₁.append hrun₂

end Plan

end Schemata
