import Mathlib.Data.List.Induction
import Schemata.Catalog.Rows
import Schemata.Proofs.Plan.References

/-!
# Proofs — catalogs — constraints of rows

What the rows of a catalog add up to, told by the rows alone.  Rows of one name make one constraint
(`Constraint.told`): the first of them says of what kind it is, and only the columns and the targets
that come up for the first time count.  So it does not matter how the rows of different constraints
are mixed, nor whether a row comes again.

* `Constraint.Gathers.addRow` — what one more row changes.
* `Constraint.ofRows_eq` — what all of them make.
* `Constraint.ofRows_groups` — the constraints of rows, and what makes no difference to them.
-/

namespace Schemata

/-! ### Items that come up for the first time -/

section

variable {α β : Type} [BEq α] [LawfulBEq α]

theorem contains_eraseDups (xs : List α) (x : α) : xs.eraseDups.contains x = xs.contains x := by
  rw [Bool.eq_iff_iff, List.contains_iff_mem, List.contains_iff_mem, List.mem_eraseDups]

theorem eraseDups_concat (xs : List α) (x : α) :
    (xs ++ [x]).eraseDups = if xs.contains x then xs.eraseDups else xs.eraseDups ++ [x] := by
  rw [List.eraseDups_append, List.removeAll, List.filter_cons, List.elem_eq_contains]
  cases xs.contains x <;> simp [List.eraseDups_cons]

theorem addNew_eraseDups (x : String) (xs : List String) :
    addNew x xs.eraseDups = (xs ++ [x]).eraseDups := by
  rw [addNew, contains_eraseDups, eraseDups_concat]

/-- What comes up among some elements is what comes up, and is among them. -/
theorem eraseDups_filter (p : α → Bool) (xs : List α) :
    (xs.filter p).eraseDups = xs.eraseDups.filter p := by
  induction xs using List.reverseRecOn with
  | nil => rfl
  | append_singleton xs x ih =>
      rw [List.filter_append, eraseDups_concat]
      cases hp : p x with
      | false =>
          rw [List.filter_cons_of_neg (by simp [hp]), List.filter_nil, List.append_nil, ih]
          split <;> simp [hp]
      | true =>
          have hmem : (xs.filter p).contains x = xs.contains x := by
            rw [Bool.eq_iff_iff, List.contains_iff_mem, List.contains_iff_mem, List.mem_filter,
              and_iff_left hp]
          rw [List.filter_cons_of_pos hp, List.filter_nil, eraseDups_concat, hmem, ih]
          split <;> simp [hp]

/-- What comes up in a part of a list does not change if the same comes up there first. -/
theorem eraseDups_append_congr {xs ys : List α} (h : xs.eraseDups = ys.eraseDups)
    (before after : List α) :
    (before ++ xs ++ after).eraseDups = (before ++ ys ++ after).eraseDups := by
  have hmem : ∀ x, xs.contains x = ys.contains x := fun x => by
    rw [← contains_eraseDups, h, contains_eraseDups]
  have hfront : (before ++ xs).eraseDups = (before ++ ys).eraseDups := by
    rw [List.eraseDups_append, List.eraseDups_append, List.removeAll, List.removeAll,
      eraseDups_filter, eraseDups_filter, h]
  have hsplit (zs : List α) : (before ++ zs ++ after).eraseDups =
      (before ++ zs).eraseDups ++ (after.removeAll (before ++ zs)).eraseDups :=
    List.eraseDups_append
  rw [hsplit, hsplit, hfront, List.removeAll, List.removeAll]
  simp only [List.elem_eq_contains, List.contains_append, hmem]

/-- Items that are each repeated come up in their order. -/
theorem eraseDups_flatMap_self {items : List α} {others : List β} (h : others ≠ []) :
    (items.flatMap fun x => others.map fun _ => x).eraseDups = items.eraseDups := by
  have hone : ∀ x : α, (others.map fun _ => x).eraseDups = [x].eraseDups := fun x => by
    obtain ⟨y, others, rfl⟩ := List.exists_cons_of_ne_nil h
    simp [List.eraseDups_cons]
  induction items using List.reverseRecOn with
  | nil => rfl
  | append_singleton items x ih =>
      rw [List.flatMap_append, List.flatMap_singleton]
      have hlast :=
        eraseDups_append_congr (hone x) (items.flatMap fun x => others.map fun _ => x) []
      have hfront := eraseDups_append_congr ih [] [x]
      simp only [List.append_nil] at hlast
      simp only [List.nil_append] at hfront
      exact hlast.trans hfront

/-- Items that are repeated as a whole come up the first time. -/
theorem eraseDups_flatMap_const {items : List α} {others : List β} (h : others ≠ []) :
    (others.flatMap fun _ => items).eraseDups = items.eraseDups := by
  have htwice : (items ++ items).eraseDups = items.eraseDups := by
    rw [List.eraseDups_append, List.removeAll, List.filter_eq_nil_iff.mpr (by simp)]
    simp
  induction others with
  | nil => exact absurd rfl h
  | cons y others ih =>
      rw [List.flatMap_cons]
      rcases eq_or_ne others [] with rfl | hmore
      · simp
      · have hrest := eraseDups_append_congr (ih hmore) items []
        simp only [List.append_nil] at hrest
        exact hrest.trans htwice

end

/-! ### Rows of one name -/

namespace ConstraintRow

/-- The rows of a name. -/
def named (name : String) (rows : List ConstraintRow) : List ConstraintRow :=
  rows.filter fun r => r.name == name

/-- The column that a row says is referred to, if it says so. -/
def target? (r : ConstraintRow) : Option String := r.target.filter (· ≠ "")

/-- The row says nothing that others have not said: its column has come up under its name, and so
has its target, if it has one. -/
def IsKnown (r : ConstraintRow) (before : List ConstraintRow) : Prop :=
  (∃ s ∈ before, s.name = r.name ∧ s.column = r.column) ∧
    ∀ target, r.target? = some target → ∃ s ∈ before, s.name = r.name ∧ s.target? = some target

theorem IsKnown.of_mem {r : ConstraintRow} {before : List ConstraintRow} (h : r ∈ before) :
    r.IsKnown before :=
  ⟨⟨r, h, rfl, rfl⟩, fun _ htarget => ⟨r, h, rfl, htarget⟩⟩

/-- The rows of a foreign key of several columns, each with its target. -/
def paired (name : String) (table : Option String) (columns targets : List String) :
    List ConstraintRow :=
  (columns.zip targets).map fun (column, target) =>
    ⟨name, "FOREIGN KEY", column, table, some target⟩

/-- The rows of a foreign key of several columns, each with every target. -/
def crossed (name : String) (table : Option String) (columns targets : List String) :
    List ConstraintRow :=
  columns.flatMap fun column =>
    targets.map fun target => ⟨name, "FOREIGN KEY", column, table, some target⟩

end ConstraintRow

namespace Constraint

open ConstraintRow

/-- The constraint that rows of one name tell of. -/
def told (rows : List ConstraintRow) : Option Constraint :=
  rows.head?.map fun first =>
    { name := first.name
      kind := first.kind
      columns := (rows.map ConstraintRow.column).eraseDups
      table := if first.kind = "FOREIGN KEY" then first.table else none
      targets :=
        if first.kind = "FOREIGN KEY" then some (rows.filterMap target?).eraseDups else none }

variable {rows : List ConstraintRow} {cs : List Constraint} {c : Constraint} {r : ConstraintRow}

/-- A row adds its column, and its target for a foreign key, if they are new. -/
theorem withRow_eq (c : Constraint) (r : ConstraintRow) :
    c.withRow r =
      { c with
        columns := addNew r.column c.columns
        targets := c.targets.map fun targets =>
          (r.target?.map (addNew · targets)).getD targets } := by
  unfold withRow target?
  cases r.target with
  | none => rfl
  | some target => by_cases h : target = "" <;> simp [h, Option.filter]

/-- One more row of a name is added to what the others tell. -/
theorem told_concat (rows : List ConstraintRow) (r : ConstraintRow) :
    told (rows ++ [r]) = some (((told rows).getD (begun r)).withRow r) := by
  have htargets : ∀ targets : List String,
      (targets ++ r.target?.toList).eraseDups =
        (r.target?.map (addNew · targets.eraseDups)).getD targets.eraseDups := fun targets => by
    cases r.target? with
    | none => simp
    | some target => exact (addNew_eraseDups target targets).symm
  have hlast : (rows ++ [r]).filterMap target? = rows.filterMap target? ++ r.target?.toList := by
    rw [List.filterMap_append]
    cases h : r.target? <;> simp [h]
  have hcolumns : ((rows ++ [r]).map ConstraintRow.column).eraseDups =
      addNew r.column (rows.map ConstraintRow.column).eraseDups := by
    rw [addNew_eraseDups, List.map_append, List.map_singleton]
  unfold told
  rw [hlast, hcolumns, htargets, withRow_eq]
  cases rows with
  | nil => by_cases hkind : r.kind = "FOREIGN KEY" <;> simp [begun, hkind]
  | cons first rest => by_cases hkind : first.kind = "FOREIGN KEY" <;> simp [hkind]

theorem withRow_name (c : Constraint) (r : ConstraintRow) : (c.withRow r).name = c.name := rfl

/-- The constraints are those that the rows tell of, in the order in which their names come up. -/
structure Gathers (rows : List ConstraintRow) (cs : List Constraint) : Prop where
  names : cs.map name = (rows.map ConstraintRow.name).eraseDups
  told : ∀ c ∈ cs, told (named c.name rows) = some c

/-- After a row, a constraint is one of another name, the one of its name with the row, or a new
one. -/
theorem mem_addRow (hnames : (cs.map name).Nodup) (h : c ∈ addRow r cs) :
    (c ∈ cs ∧ c.name ≠ r.name) ∨ (∃ b ∈ cs, b.name = r.name ∧ c = b.withRow r) ∨
      r.name ∉ cs.map name ∧ c = (begun r).withRow r := by
  induction cs with
  | nil => exact .inr (.inr ⟨List.not_mem_nil, List.mem_singleton.mp h⟩)
  | cons b cs ih =>
      obtain ⟨hb, hrest⟩ := List.nodup_cons.mp hnames
      unfold addRow at h
      split at h
      next heq =>
          rcases List.mem_cons.mp h with rfl | h
          · exact .inr (.inl ⟨b, List.mem_cons_self, heq, rfl⟩)
          · exact .inl ⟨List.mem_cons_of_mem b h, fun hc =>
              hb (heq.trans hc.symm ▸ List.mem_map_of_mem h)⟩
      next hne =>
          rcases List.mem_cons.mp h with rfl | h
          · exact .inl ⟨List.mem_cons_self, hne⟩
          · rcases ih hrest h with ⟨hc, hname⟩ | ⟨b', hb', hname⟩ | ⟨hnew, hc⟩
            · exact .inl ⟨List.mem_cons_of_mem b hc, hname⟩
            · exact .inr (.inl ⟨b', List.mem_cons_of_mem b hb', hname⟩)
            · refine .inr (.inr ⟨fun hmem => ?_, hc⟩)
              rcases List.mem_cons.mp hmem with heq | hmem
              · exact hne heq.symm
              · exact hnew hmem

theorem named_concat (name : String) (rows : List ConstraintRow) (r : ConstraintRow) :
    named name (rows ++ [r]) =
      if r.name = name then named name rows ++ [r] else named name rows := by
  unfold named
  rw [List.filter_append]
  split <;> simp_all

theorem mem_map_name_iff {name : String} :
    name ∈ rows.map ConstraintRow.name ↔ named name rows ≠ [] := by
  simp [named, List.filter_eq_nil_iff]

/-- **One more row** is added to the constraint of its name, or begins a new one. -/
theorem Gathers.addRow (h : Gathers rows cs) (r : ConstraintRow) :
    Gathers (rows ++ [r]) (addRow r cs) := by
  refine ⟨?_, fun c hc => ?_⟩
  · rw [map_name_addRow, h.names, addNew_eraseDups, List.map_append, List.map_singleton]
  · have hnames : (cs.map name).Nodup := h.names ▸ nodup_eraseDups _
    rw [named_concat]
    rcases mem_addRow hnames hc with ⟨hc, hne⟩ | ⟨b, hb, hname, rfl⟩ | ⟨hnew, rfl⟩
    · rw [if_neg (Ne.symm hne)]
      exact h.told c hc
    · rw [withRow_name, if_pos hname.symm, told_concat, h.told b hb, Option.getD_some]
    · have hnone : named r.name rows = [] := by
        rw [h.names, List.mem_eraseDups, mem_map_name_iff] at hnew
        exact not_not.mp hnew
      have hname : ((begun r).withRow r).name = r.name := rfl
      rw [hname, if_pos rfl, hnone, told_concat]
      rfl

/-- **Grouping gathers**, row by row. -/
theorem gathers_ofRows (rows : List ConstraintRow) : Gathers rows (ofRows rows) := by
  induction rows using List.reverseRecOn with
  | nil => exact ⟨rfl, fun c hc => absurd hc List.not_mem_nil⟩
  | append_singleton rows r ih =>
      unfold ofRows
      rw [List.foldl_append]
      exact ih.addRow r

/-- **The constraints of rows** are told by the rows of each name. -/
theorem ofRows_eq (rows : List ConstraintRow) :
    ofRows rows =
      (rows.map ConstraintRow.name).eraseDups.filterMap fun name => told (named name rows) := by
  have h := gathers_ofRows rows
  rw [← h.names, List.filterMap_map]
  calc ofRows rows = (ofRows rows).filterMap some := List.filterMap_some.symm
    _ = _ := List.filterMap_congr fun c hc => (h.told c hc).symm

/-! ### What makes no difference -/

/-- Rows that tell the same, whatever rows come before and after them: the same names come up in
the same order, and for each of them the same kind, the same columns and the same targets. -/
structure Alike (xs ys : List ConstraintRow) : Prop where
  names : (xs.map ConstraintRow.name).eraseDups = (ys.map ConstraintRow.name).eraseDups
  first : ∀ name, (named name xs).head?.map (fun r => (r.name, r.kind, r.table)) =
    (named name ys).head?.map fun r => (r.name, r.kind, r.table)
  columns : ∀ name, ((named name xs).map ConstraintRow.column).eraseDups =
    ((named name ys).map ConstraintRow.column).eraseDups
  targets : ∀ name, ((named name xs).filterMap target?).eraseDups =
    ((named name ys).filterMap target?).eraseDups

/-- What rows tell depends on the first of them, their columns and their targets. -/
theorem told_eq (rows : List ConstraintRow) :
    told rows = (rows.head?.map fun r => (r.name, r.kind, r.table)).map fun (name, kind, table) =>
      { name, kind
        columns := (rows.map ConstraintRow.column).eraseDups
        table := if kind = "FOREIGN KEY" then table else none
        targets :=
          if kind = "FOREIGN KEY" then some (rows.filterMap target?).eraseDups else none } := by
  rw [Option.map_map]
  rfl

/-- Rows that tell the same make the same constraints, wherever they stand. -/
theorem Alike.ofRows_eq {xs ys : List ConstraintRow} (h : Alike xs ys)
    (before after : List ConstraintRow) :
    ofRows (before ++ xs ++ after) = ofRows (before ++ ys ++ after) := by
  have htold : ∀ name, told (named name (before ++ xs ++ after)) =
      told (named name (before ++ ys ++ after)) := fun name => by
    have hsplit : ∀ zs, named name (before ++ zs ++ after) =
        named name before ++ named name zs ++ named name after := fun zs => by simp [named]
    have hfirst :
        (named name (before ++ xs ++ after)).head?.map (fun r => (r.name, r.kind, r.table)) =
          (named name (before ++ ys ++ after)).head?.map fun r => (r.name, r.kind, r.table) := by
      simp only [hsplit, List.head?_append, Option.map_or, h.first name]
    rw [told_eq, told_eq, hfirst]
    simp only [hsplit, List.map_append, List.filterMap_append,
      eraseDups_append_congr (h.columns name), eraseDups_append_congr (h.targets name)]
  rw [Constraint.ofRows_eq, Constraint.ofRows_eq (before ++ ys ++ after)]
  simp only [htold, List.map_append, eraseDups_append_congr h.names]

/-- A row that says nothing new tells nothing after the others. -/
theorem alike_concat {before : List ConstraintRow} (h : r.IsKnown before) :
    Alike (before ++ [r]) before := by
  obtain ⟨⟨s, hs, hname, hcolumn⟩, htargets⟩ := h
  have hnamed : s ∈ named r.name before := List.mem_filter.mpr ⟨hs, beq_iff_eq.mpr hname⟩
  have hknown : ∀ (xs : List String) (x : String), x ∈ xs → (xs ++ [x]).eraseDups = xs.eraseDups :=
    fun xs x hx => by rw [eraseDups_concat, if_pos (List.contains_iff_mem.mpr hx)]
  refine ⟨?_, fun name => ?_, fun name => ?_, fun name => ?_⟩
  · rw [List.map_append, List.map_singleton]
    exact hknown _ _ (hname ▸ List.mem_map_of_mem hs)
  all_goals rw [named_concat]; split
  · subst name
    obtain ⟨first, rest, hfirst⟩ := List.exists_cons_of_ne_nil (List.ne_nil_of_mem hnamed)
    rw [hfirst]
    rfl
  · rfl
  · subst name
    rw [List.map_append, List.map_singleton]
    exact hknown _ _ (hcolumn ▸ List.mem_map_of_mem hnamed)
  · rfl
  · subst name
    rw [List.filterMap_append]
    cases htarget : r.target? with
    | none => simp [htarget]
    | some target =>
        obtain ⟨s', hs', hname', htarget'⟩ := htargets target htarget
        have hnamed' : s' ∈ named r.name before :=
          List.mem_filter.mpr ⟨hs', beq_iff_eq.mpr hname'⟩
        rw [List.filterMap_cons_some htarget, List.filterMap_nil]
        exact hknown _ _ (List.mem_filterMap.mpr ⟨s', hnamed', htarget'⟩)
  · rfl

theorem named_of_forall {name : String} (h : ∀ r ∈ rows, r.name = name) (name' : String) :
    named name' rows = if name = name' then rows else [] := by
  unfold named
  split
  next heq => exact List.filter_eq_self.mpr fun r hr => beq_iff_eq.mpr ((h r hr).trans heq)
  next hne => exact List.filter_eq_nil_iff.mpr fun r hr =>
      Bool.not_eq_true _ ▸ beq_eq_false_iff_ne.mpr (h r hr ▸ hne)

/-- Rows of one name tell the same if they begin alike, and have the same columns and targets. -/
theorem Alike.of_forall {xs ys : List ConstraintRow} (name : String)
    (hxs : ∀ r ∈ xs, r.name = name) (hys : ∀ r ∈ ys, r.name = name)
    (hfirst : xs.head?.map (fun r => (r.name, r.kind, r.table)) =
      ys.head?.map fun r => (r.name, r.kind, r.table))
    (hcolumns : (xs.map ConstraintRow.column).eraseDups = (ys.map ConstraintRow.column).eraseDups)
    (htargets : (xs.filterMap target?).eraseDups = (ys.filterMap target?).eraseDups) :
    Alike xs ys := by
  have hnames : ∀ zs : List ConstraintRow, (∀ r ∈ zs, r.name = name) →
      (zs.map ConstraintRow.name).eraseDups = (zs.head?.map ConstraintRow.name).toList := by
    intro zs hzs
    cases zs with
    | nil => rfl
    | cons first rest =>
        have hrest : (rest.map ConstraintRow.name).filter (fun n => !n == first.name) = [] := by
          simp only [List.filter_eq_nil_iff, List.mem_map]
          rintro _ ⟨r, hr, rfl⟩
          simp [hzs r (List.mem_cons_of_mem first hr), hzs first List.mem_cons_self]
        rw [List.map_cons, List.eraseDups_cons, hrest]
        rfl
  refine ⟨?_, fun n => ?_, fun n => ?_, fun n => ?_⟩
  · have hhead := congrArg (Option.map Prod.fst) hfirst
    rw [Option.map_map, Option.map_map] at hhead
    rw [hnames xs hxs, hnames ys hys]
    exact congrArg Option.toList hhead
  all_goals
    rw [named_of_forall hxs, named_of_forall hys]
    split
  · exact hfirst
  · rfl
  · exact hcolumns
  · rfl
  · exact htargets
  · rfl

/-- A foreign key tells the same with each target for each column as with one for each. -/
theorem alike_crossed (name : String) (table : Option String) {columns targets : List String}
    (h : columns.length = targets.length) :
    Alike (crossed name table columns targets) (paired name table columns targets) := by
  rcases eq_or_ne columns [] with rfl | hcolumns
  · exact .of_forall name (by simp [crossed]) (by simp [paired]) rfl rfl rfl
  have htargets : targets ≠ [] := fun hnil => hcolumns (by simpa [hnil] using h)
  have hcrossed : ∀ r ∈ crossed name table columns targets, r.name = name := by
    simp only [crossed, List.mem_flatMap, List.mem_map]
    rintro _ ⟨column, -, target, -, rfl⟩
    rfl
  have hpaired : ∀ r ∈ paired name table columns targets, r.name = name := by
    simp only [paired, List.mem_map]
    rintro _ ⟨⟨column, target⟩, -, rfl⟩
    rfl
  refine .of_forall name hcrossed hpaired ?_ ?_ ?_
  · obtain ⟨column, columns, rfl⟩ := List.exists_cons_of_ne_nil hcolumns
    obtain ⟨target, targets, rfl⟩ := List.exists_cons_of_ne_nil htargets
    rfl
  · have hrows : (crossed name table columns targets).map ConstraintRow.column =
        columns.flatMap fun column => targets.map fun _ => column := by
      simp [crossed, List.map_flatMap, Function.comp_def]
    have hpairs : (paired name table columns targets).map ConstraintRow.column = columns := by
      rw [paired, List.map_map]
      exact List.map_fst_zip (Nat.le_of_eq h)
    rw [hrows, hpairs, eraseDups_flatMap_self htargets]
  · have htarget : ∀ rows : List ConstraintRow, rows.filterMap target? =
        (rows.map ConstraintRow.target).filterMap (·.filter (· ≠ "")) := fun rows => by
      rw [List.filterMap_map]
      rfl
    have hrows : (crossed name table columns targets).map ConstraintRow.target =
        columns.flatMap fun _ => targets.map some := by
      simp [crossed, List.map_flatMap, Function.comp_def]
    have hpairs : (paired name table columns targets).map ConstraintRow.target =
        targets.map some := by
      rw [paired, List.map_map, ← List.map_snd_zip (Nat.le_of_eq h.symm), List.map_map,
        List.map_snd_zip (Nat.le_of_eq h.symm)]
      rfl
    rw [htarget, htarget, hrows, hpairs, List.filterMap_flatMap, eraseDups_flatMap_const hcolumns]

/-- **The constraints of rows**: one for each name, in the order in which the names come up, of the
kind that its first row says, with the distinct columns, and for a foreign key the table of its
first row and the distinct targets.  A row that says nothing new makes no difference, nor does it
make one to say every target for every column of a foreign key; and mixing the rows of different
constraints in another way only changes their order. -/
theorem ofRows_groups (rows : List ConstraintRow) :
    (ofRows rows).map name = (rows.map ConstraintRow.name).eraseDups ∧
    (∀ c ∈ ofRows rows, ∃ first, (named c.name rows).head? = some first ∧ c =
      { name := first.name
        kind := first.kind
        columns := ((named c.name rows).map ConstraintRow.column).eraseDups
        table := if first.kind = "FOREIGN KEY" then first.table else none
        targets := if first.kind = "FOREIGN KEY" then
          some ((named c.name rows).filterMap target?).eraseDups else none }) ∧
    (∀ before r after, rows = before ++ r :: after → r.IsKnown before →
      ofRows rows = ofRows (before ++ after)) ∧
    (∀ before after name table columns targets, columns.length = targets.length →
      rows = before ++ crossed name table columns targets ++ after →
      ofRows rows = ofRows (before ++ paired name table columns targets ++ after)) ∧
    ∀ others, (∀ name, named name others = named name rows) →
      (ofRows others).Perm (ofRows rows) := by
  refine ⟨(gathers_ofRows rows).names, fun c hc => ?_, ?_, ?_, fun others h => ?_⟩
  · obtain ⟨first, hfirst, htold⟩ :=
      Option.map_eq_some_iff.mp ((gathers_ofRows rows).told c hc)
    exact ⟨first, hfirst, htold.symm⟩
  · rintro before r after rfl hknown
    simpa using (alike_concat hknown).ofRows_eq [] after
  · rintro before after name table columns targets hlength rfl
    exact (alike_crossed name table hlength).ofRows_eq before after
  · have hnames : (others.map ConstraintRow.name).eraseDups.Perm
        (rows.map ConstraintRow.name).eraseDups := by
      refine (List.perm_ext_iff_of_nodup (nodup_eraseDups _) (nodup_eraseDups _)).mpr fun name => ?_
      rw [List.mem_eraseDups, List.mem_eraseDups, mem_map_name_iff, mem_map_name_iff, h name]
    rw [ofRows_eq, ofRows_eq]
    simp only [h]
    exact hnames.filterMap _

/-- The rows of a foreign key of two columns: a booking is for a seat in a hall. -/
def seatRows : List ConstraintRow :=
  crossed "seat_fkey" (some "seat") ["hall", "number"] ["hall", "id"]

/-- The row of the key of a booking. -/
def keyRow : ConstraintRow := ⟨"booking_pkey", "PRIMARY KEY", "id", none, none⟩

/-- The rows of both, mixed. -/
def bookingRows : List ConstraintRow := seatRows.take 1 ++ keyRow :: seatRows.drop 1

/-- However the rows are mixed, and whether or not the first one comes again at the end, there are
a key and a foreign key of two columns. -/
theorem bookings_grouped :
    (ofRows (bookingRows ++ seatRows.take 1)).map (fun c => (c.name, c.columns, c.targets)) =
      [("seat_fkey", ["hall", "number"], some ["hall", "id"]), ("booking_pkey", ["id"], none)] ∧
    ofRows (bookingRows ++ seatRows.take 1) = ofRows bookingRows ∧
    (ofRows bookingRows).Perm (ofRows (keyRow :: seatRows)) ∧
    ofRows (keyRow :: seatRows) =
      ofRows (keyRow :: paired "seat_fkey" (some "seat") ["hall", "number"] ["hall", "id"]) := by
  have hrepeated := (ofRows_groups (bookingRows ++ seatRows.take 1)).2.2.1 bookingRows _ [] rfl
    (.of_mem List.mem_cons_self)
  have hcrossed := (ofRows_groups (keyRow :: seatRows)).2.2.2.1 [keyRow] [] "seat_fkey"
    (some "seat") ["hall", "number"] ["hall", "id"] rfl (List.append_nil _).symm
  refine ⟨by decide +kernel, by simpa using hrepeated,
    (ofRows_groups (keyRow :: seatRows)).2.2.2.2 bookingRows fun name => ?_,
    by simpa using hcrossed⟩
  by_cases h : keyRow.name = name
  · subst h
    decide +kernel
  · have hkey : ∀ rows, named name (keyRow :: rows) = named name rows := fun rows =>
      List.filter_cons_of_neg (mt beq_iff_eq.mp h)
    have hmixed : named name bookingRows =
        named name (seatRows.take 1) ++ named name (keyRow :: seatRows.drop 1) :=
      List.filter_append _ _
    rw [hmixed, hkey, hkey, named, named, ← List.filter_append, List.take_append_drop, named]

/-- The row of a unique constraint that tells of a table. -/
def uniqueRow : ConstraintRow := ⟨"seat_key", "UNIQUE", "number", some "seat", some "number"⟩

/-- **The table of a constraint that is no foreign key** is not told, whatever its rows say. -/
theorem uniqueRow_tableless : ∃ c, ofRows [uniqueRow] = [c] ∧ c.name = uniqueRow.name ∧
    c.table = none ∧ uniqueRow.table = some "seat" :=
  ⟨_, rfl, rfl, rfl, rfl⟩

end Constraint

end Schemata
