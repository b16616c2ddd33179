import Mathlib.Data.List.Permutation
import Schemata.Proofs.Catalog.Folding

/-!
# Proofs — catalogs — tables that join others

Which tables are folded, told by their columns and constraints alone.  Of the foreign keys of one
column the last one counts (`Table.LeadsTo`).  A table joins two others (`Table.Joins`) if such keys
lead from two of its columns to them and its other columns tell nothing else, and it is folded
(`Snapshot.FoldsTable`) if neither of the two joins tables itself.

* `Table.mem_foreignKeys_iff` — the foreign keys that count are found.
* `Table.joins_iff` — a table that joins two others is a link between them, in one of the two
  orders.
* `Snapshot.foldsTable_iff_folds` — so the tables that are folded are those that are found to be.
-/

namespace Schemata

/-! ### The last item of a name -/

section

variable {α : Type} {name : α → String}

/-- What stands in a list after something was put there is that, or has another name. -/
theorem mem_putNamed_iff {x y : α} {ys : List α} (h : (ys.map name).Nodup) :
    y ∈ putNamed name x ys ↔ y = x ∨ y ∈ ys ∧ name y ≠ name x := by
  induction ys with
  | nil => simp [putNamed]
  | cons z ys ih =>
      obtain ⟨hz, hnodup⟩ := List.nodup_cons.mp h
      unfold putNamed
      split
      next heq =>
          have hrest : y ∈ ys → name y ≠ name x := fun hy he =>
            hz (List.mem_map.mpr ⟨y, hy, he.trans heq.symm⟩)
          rw [List.mem_cons, List.mem_cons]
          constructor
          · rintro (hy | hy)
            · exact .inl hy
            · exact .inr ⟨.inr hy, hrest hy⟩
          · rintro (hy | ⟨rfl | hy, hname⟩)
            · exact .inl hy
            · exact absurd heq hname
            · exact .inr hy
      next hne =>
          rw [List.mem_cons, List.mem_cons, ih hnodup]
          constructor
          · rintro (rfl | hy | ⟨hy, hname⟩)
            · exact .inr ⟨.inl rfl, hne⟩
            · exact .inl hy
            · exact .inr ⟨.inr hy, hname⟩
          · rintro (hy | ⟨hy | hy, hname⟩)
            · exact .inr (.inl hy)
            · exact .inl hy
            · exact .inr (.inr ⟨hy, hname⟩)

/-- Of a list that was put together item by item, the last item of each name is left. -/
theorem mem_distinctNamed_iff {x : α} {xs : List α} :
    x ∈ distinctNamed name xs ↔
      ∃ before after, xs = before ++ x :: after ∧ ∀ y ∈ after, name y ≠ name x := by
  refine (distinctNamed_induction name (P := fun xs ys => (ys.map name).Nodup ∧ ∀ x, x ∈ ys ↔
    ∃ before after, xs = before ++ x :: after ∧ ∀ y ∈ after, name y ≠ name x)
    ⟨.nil, by simp⟩ (fun xs ys z ⟨hnodup, ih⟩ => ⟨nodup_putNamed name z ys hnodup, fun x => ?_⟩)
    xs).2 x
  rw [mem_putNamed_iff hnodup, ih]
  constructor
  · rintro (rfl | ⟨⟨before, after, rfl, hlast⟩, hne⟩)
    · exact ⟨xs, [], rfl, by simp⟩
    · refine ⟨before, after ++ [z], by simp, fun y hy => ?_⟩
      rcases List.mem_append.mp hy with hy | hy
      · exact hlast y hy
      · rw [List.mem_singleton.mp hy]
        exact hne.symm
  · rintro ⟨before, after, heq, hlast⟩
    rcases List.eq_nil_or_concat after with rfl | ⟨after, y, rfl⟩
    · obtain ⟨-, rfl⟩ := List.append_singleton_inj.mp heq
      exact .inl rfl
    · have heq : xs ++ [z] = (before ++ x :: after) ++ [y] := by simpa using heq
      obtain ⟨rfl, rfl⟩ := List.append_singleton_inj.mp heq
      exact .inr ⟨⟨before, after, rfl, fun y hy => hlast y (by simp [hy])⟩,
        (hlast z (by simp)).symm⟩

end

/-! ### Foreign keys that count -/

/-- The constraint is a foreign key of this one column to the table.  One that tells of no table leads
to none. -/
def Constraint.IsKeyTo (c : Constraint) (column target : String) : Prop :=
  c.kind = "FOREIGN KEY" ∧ c.columns = [column] ∧ c.table = some target ∧ target ≠ ""

namespace Table

/-- The last foreign key of this one column leads to the target. -/
def LeadsTo (t : Table) (column target : String) : Prop :=
  ∃ before c after, t.constraints = before ++ c :: after ∧ c.IsKeyTo column target ∧
    ∀ later ∈ after, ∀ other, ¬ later.IsKeyTo column other

/-- The table has foreign keys of two single columns, which lead to two other tables that are known,
or twice to the same one, and its other columns belong to the primary key or only tell of times. -/
def Joins (t : Table) (known : List String) (left right : String) : Prop :=
  ∃ a b, a ≠ b ∧
    (∀ column target, t.LeadsTo column target ↔
      column = a ∧ target = left ∨ column = b ∧ target = right) ∧
    (∀ c ∈ t.columns, c.name = a ∨ c.name = b ∨
      (∃ k ∈ t.constraints, k.kind = "PRIMARY KEY" ∧ c.name ∈ k.columns) ∨
      c.name = "created_at" ∨ c.name = "updated_at") ∧
    left ∈ known ∧ right ∈ known ∧ left ≠ t.name ∧ right ≠ t.name

end Table

/-- The foreign key that the constraint is, if it is one of a single column. -/
def Constraint.key? (c : Constraint) : Option (String × String) :=
  match c.columns, c.table with
  | [column], some table =>
    if c.kind == "FOREIGN KEY" && table != "" then some (column, table) else none
  | _, _ => none

/-- A constraint is a key exactly if it is one of a single column that tells a table. -/
theorem Constraint.key?_eq_some_iff {c : Constraint} {column target : String} :
    c.key? = some (column, target) ↔ c.IsKeyTo column target := by
  unfold key? IsKeyTo
  split
  next hcolumns htable => simp [hcolumns, htable]; grind
  next h =>
      refine iff_of_false (by simp) ?_
      rintro ⟨-, hcolumns, htable, -⟩
      exact h _ _ hcolumns htable

namespace Table

variable {t : Table} {known : List String} {left right column target : String}

/-- **The foreign keys that count** are found. -/
theorem mem_foreignKeys_iff : (column, target) ∈ t.foreignKeys ↔ t.LeadsTo column target := by
  have hkeys : t.foreignKeys = distinctNamed Prod.fst (t.constraints.filterMap Constraint.key?) :=
    rfl
  rw [hkeys, mem_distinctNamed_iff]
  constructor
  · rintro ⟨before, after, heq, hlast⟩
    obtain ⟨cs, ds, hsplit, -, hds⟩ := List.filterMap_eq_append_iff.mp heq
    obtain ⟨es, c, fs, rfl, -, hc, rfl⟩ := List.filterMap_eq_cons_iff.mp hds
    refine ⟨cs ++ es, c, fs, by simp [hsplit], Constraint.key?_eq_some_iff.mp hc,
      fun later hlater other hkey => ?_⟩
    exact hlast (column, other)
      (List.mem_filterMap.mpr ⟨later, hlater, Constraint.key?_eq_some_iff.mpr hkey⟩) rfl
  · rintro ⟨before, c, after, hsplit, hc, hlast⟩
    refine ⟨before.filterMap Constraint.key?, after.filterMap Constraint.key?, ?_, ?_⟩
    · rw [hsplit, List.filterMap_append,
        List.filterMap_cons_some (Constraint.key?_eq_some_iff.mpr hc)]
    · rintro ⟨column', other⟩ hmem rfl
      obtain ⟨later, hlater, hkey⟩ := List.mem_filterMap.mp hmem
      exact hlast later hlater other (Constraint.key?_eq_some_iff.mp hkey)

theorem Joins.symm (h : t.Joins known left right) : t.Joins known right left := by
  obtain ⟨a, b, hne, hkeys, hcolumns, hl, hr, hnl, hnr⟩ := h
  refine ⟨b, a, hne.symm, fun column target => (hkeys column target).trans or_comm, fun c hc => ?_,
    hr, hl, hnr, hnl⟩
  rw [or_left_comm]
  exact hcolumns c hc

/-- Its foreign keys that count lead to these two tables. -/
theorem Joins.exists_leadsTo_iff (h : t.Joins known left right) :
    (∃ column, t.LeadsTo column target) ↔ target = left ∨ target = right := by
  obtain ⟨a, b, -, hkeys, -⟩ := h
  simp only [hkeys]
  constructor
  · rintro ⟨column, ⟨-, h⟩ | ⟨-, h⟩⟩
    · exact .inl h
    · exact .inr h
  · rintro (h | h)
    · exact ⟨a, .inl ⟨rfl, h⟩⟩
    · exact ⟨b, .inr ⟨rfl, h⟩⟩

/-- A link joins its two tables. -/
theorem IsLink.joins (h : t.IsLink known left right) : t.Joins known left right := by
  obtain ⟨⟨a, b, hkeys⟩, hlinking, ⟨hl, hr⟩, hnl, hnr⟩ := h
  have hnodup := t.keyColumns_nodup
  rw [hkeys] at hnodup hlinking
  refine ⟨a, b, by simpa using hnodup, fun column target => ?_, fun c hc => ?_, hl, hr, hnl.symm,
    hnr.symm⟩
  · rw [← mem_foreignKeys_iff, hkeys]
    simp
  · have := hlinking c hc
    simpa [mem_primaryKey_iff, bookkeeping, or_assoc] using this

/-- **A table that joins two others** is a link between them, whichever of its keys comes first. -/
theorem joins_iff :
    t.Joins known left right ↔ t.IsLink known left right ∨ t.IsLink known right left := by
  refine ⟨?_, fun h => h.elim IsLink.joins fun h => h.joins.symm⟩
  rintro ⟨a, b, hne, hkeys, hcolumns, hl, hr, hnl, hnr⟩
  have hlinking : ∀ c ∈ t.columns, c.name ∈ t.foreignKeys.map Prod.fst ∨ c.name ∈ t.primaryKey ∨
      c.name ∈ bookkeeping := fun c hc => by
    have ha : a ∈ t.foreignKeys.map Prod.fst :=
      List.mem_map.mpr ⟨(a, left), mem_foreignKeys_iff.mpr ((hkeys a left).mpr (by simp)), rfl⟩
    have hb : b ∈ t.foreignKeys.map Prod.fst :=
      List.mem_map.mpr ⟨(b, right), mem_foreignKeys_iff.mpr ((hkeys b right).mpr (by simp)), rfl⟩
    rcases hcolumns c hc with h | h | h | h
    · exact .inl (h ▸ ha)
    · exact .inl (h ▸ hb)
    · exact .inr (.inl (mem_primaryKey_iff.mpr h))
    · exact .inr (.inr (by simpa [bookkeeping] using h))
  have hperm : t.foreignKeys.Perm [(a, left), (b, right)] := by
    refine (List.perm_ext_iff_of_nodup t.keyColumns_nodup.of_map (by simp [hne])).mpr ?_
    rintro ⟨column, target⟩
    rw [mem_foreignKeys_iff, hkeys]
    simp
  rcases List.perm_pair.mp hperm with hkeys | hkeys
  · exact .inl ⟨⟨a, b, hkeys⟩, hlinking, ⟨hl, hr⟩, hnl.symm, hnr.symm⟩
  · exact .inr ⟨⟨b, a, hkeys⟩, hlinking, ⟨hr, hl⟩, hnr.symm, hnl.symm⟩

end Table

/-! ### Tables that are folded -/

namespace Snapshot

/-- The table joins two tables of the snapshot, and neither of them joins tables itself. -/
def FoldsTable (s : Snapshot) (t : Table) : Prop :=
  ∃ left right, t.Joins s.names left right ∧
    ∀ u ∈ s, u.name = left ∨ u.name = right → ∀ l r, ¬ u.Joins s.names l r

variable {s : Snapshot} {t : Table}

/-- A table links exactly if it joins two known tables. -/
theorem links_iff {name : String} :
    s.Links name ↔ ∃ t ∈ s, t.name = name ∧ ∃ left right, t.Joins s.names left right := by
  unfold Links
  refine exists_congr fun t => and_congr_right fun _ => and_congr_right fun _ => ?_
  constructor
  · rintro ⟨left, right, h⟩
    exact ⟨left, right, h.joins⟩
  · rintro ⟨left, right, h⟩
    rcases Table.joins_iff.mp h with h | h
    · exact ⟨left, right, h⟩
    · exact ⟨right, left, h⟩

/-- A table is folded exactly if it is a link between tables that link nothing. -/
theorem foldsTable_iff : s.FoldsTable t ↔
    ∃ left right, t.IsLink s.names left right ∧ ¬ s.Links left ∧ ¬ s.Links right := by
  have hfree : ∀ left right, (∀ u ∈ s, u.name = left ∨ u.name = right →
      ∀ l r, ¬ u.Joins s.names l r) ↔ ¬ s.Links left ∧ ¬ s.Links right := fun left right => by
    simp only [links_iff]
    push Not
    constructor
    · intro h
      exact ⟨fun u hu hname => h u hu (.inl hname), fun u hu hname => h u hu (.inr hname)⟩
    · rintro ⟨hl, hr⟩ u hu (hname | hname)
      · exact hl u hu hname
      · exact hr u hu hname
  unfold FoldsTable
  simp only [hfree]
  constructor
  · rintro ⟨left, right, hjoins, hl, hr⟩
    rcases Table.joins_iff.mp hjoins with h | h
    · exact ⟨left, right, h, hl, hr⟩
    · exact ⟨right, left, h, hr, hl⟩
  · rintro ⟨left, right, hlink, hl, hr⟩
    exact ⟨left, right, hlink.joins, hl, hr⟩

/-- **The tables that are folded** are those that are found to be. -/
theorem foldsTable_iff_folds (hnames : s.names.Nodup) (ht : t ∈ s) :
    s.FoldsTable t ↔ s.Folds t.name := by
  rw [foldsTable_iff]
  refine ⟨fun h => ⟨t, ht, rfl, h⟩, ?_⟩
  rintro ⟨u, hu, hname, h⟩
  obtain rfl := List.inj_on_of_nodup_map hnames hu ht hname
  exact h

end Snapshot

end Schemata
