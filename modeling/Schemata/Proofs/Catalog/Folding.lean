import Mathlib.Data.List.Forall2
import Mathlib.Data.List.Induction
import Schemata.Catalog.Deployed
import Schemata.Proofs.Outcome

/-!
# Proofs — catalogs — links that are folded

Which tables of a snapshot are models of the schema that it shows, and which are folded into
many-to-many fields (`Snapshot.Folds`).  A table is folded when it is a link (`Table.IsLink`)
between two tables that are none; the others are models (`Snapshot.mem_modelNames_schema_iff`).

Of a list that was put together item by item nothing but later items of the same name has gone:
`mem_of_mem_distinctNamed` and `mem_map_distinctNamed_iff`.
-/

namespace Schemata

/-! ### Lists put together by name -/

section

variable {α : Type} {name : α → String}

/-- What stands in a list after something was put there stood there, or was put. -/
theorem mem_of_mem_putNamed {x y : α} {ys : List α} (h : y ∈ putNamed name x ys) :
    y = x ∨ y ∈ ys := by
  induction ys with
  | nil => exact .inl (List.mem_singleton.mp h)
  | cons z ys ih =>
      unfold putNamed at h
      split at h
      · rcases List.mem_cons.mp h with rfl | h
        · exact .inl rfl
        · exact .inr (List.mem_cons_of_mem z h)
      · rcases List.mem_cons.mp h with rfl | h
        · exact .inr List.mem_cons_self
        · exact (ih h).imp_right (List.mem_cons_of_mem z)

/-- The names in a list after something was put there are those of both. -/
theorem mem_map_putNamed_iff {x : α} {ys : List α} {n : String} :
    n ∈ (putNamed name x ys).map name ↔ n = name x ∨ n ∈ ys.map name := by
  by_cases h : name x ∈ ys.map name
  · rw [map_putNamed_of_mem name x ys h]
    exact ⟨.inr, fun hn => hn.elim (fun e => e ▸ h) id⟩
  · rw [map_putNamed_of_not_mem name x ys h, List.mem_append, List.mem_singleton, or_comm]

/-- What holds of nothing, and of a list with one more item put, holds of the whole. -/
theorem distinctNamed_induction (name : α → String) {P : List α → List α → Prop} (nil : P [] [])
    (put : ∀ xs ys x, P xs ys → P (xs ++ [x]) (putNamed name x ys)) (xs : List α) :
    P xs (distinctNamed name xs) := by
  unfold distinctNamed
  induction xs using List.reverseRecOn with
  | nil => exact nil
  | append_singleton xs x ih =>
      rw [List.foldl_append]
      exact put xs _ x ih

/-- What is distinctly named is in the list. -/
theorem mem_of_mem_distinctNamed {x : α} {xs : List α} (h : x ∈ distinctNamed name xs) :
    x ∈ xs := by
  refine distinctNamed_induction name (P := fun xs ys => ∀ x ∈ ys, x ∈ xs)
    (fun x h => h) (fun xs ys y ih x h => ?_) xs x h
  rcases mem_of_mem_putNamed h with rfl | h
  · exact List.mem_append_right _ List.mem_cons_self
  · exact List.mem_append_left _ (ih x h)

/-- The names are those of the list. -/
theorem mem_map_distinctNamed_iff {xs : List α} {n : String} :
    n ∈ (distinctNamed name xs).map name ↔ n ∈ xs.map name := by
  refine distinctNamed_induction name
    (P := fun xs ys => n ∈ ys.map name ↔ n ∈ xs.map name) Iff.rfl (fun xs ys y ih => ?_) xs
  rw [mem_map_putNamed_iff, ih, List.map_append, List.mem_append, List.map_singleton,
    List.mem_singleton, or_comm]

end

/-! ### Links -/

namespace Table

/-- The table has a foreign key of this one column to the target. -/
def Refers (t : Table) (column target : String) : Prop :=
  target ≠ "" ∧ ∃ c ∈ t.constraints, c.kind = "FOREIGN KEY" ∧ c.columns = [column] ∧
    c.table = some target

/-- A foreign key that counts is one of the table. -/
theorem refers_of_mem_foreignKeys {t : Table} {column target : String}
    (h : (column, target) ∈ t.foreignKeys) : t.Refers column target := by
  obtain ⟨c, hc, hkey⟩ := List.mem_filterMap.mp (mem_of_mem_distinctNamed h)
  split at hkey
  next hcolumns htable =>
      split at hkey <;> cases hkey
      next hkind =>
        rw [Bool.and_eq_true, beq_iff_eq, bne_iff_ne] at hkind
        exact ⟨hkind.2, c, hc, hkind.1, hcolumns, htable⟩
  next => cases hkey

/-- Of the foreign keys of a column, one counts. -/
theorem mem_keyColumns_iff {t : Table} {column : String} :
    column ∈ t.foreignKeys.map Prod.fst ↔ ∃ target, t.Refers column target := by
  constructor
  · intro h
    obtain ⟨⟨column, target⟩, hmem, rfl⟩ := List.mem_map.mp h
    exact ⟨target, refers_of_mem_foreignKeys hmem⟩
  · rintro ⟨target, htarget, c, hc, hkind, hcolumns, htable⟩
    refine mem_map_distinctNamed_iff.mpr (List.mem_map.mpr ⟨(column, target), ?_, rfl⟩)
    refine List.mem_filterMap.mpr ⟨c, hc, ?_⟩
    simp [hkind, hcolumns, htable, htarget]

theorem keyColumns_nodup (t : Table) : (t.foreignKeys.map Prod.fst).Nodup :=
  nodup_distinctNamed _ _

theorem mem_primaryKey_iff {t : Table} {n : String} :
    n ∈ t.primaryKey ↔ ∃ c ∈ t.constraints, c.kind = "PRIMARY KEY" ∧ n ∈ c.columns := by
  unfold primaryKey keyed
  simp [List.mem_flatMap, and_assoc]

/-- A table that does nothing but link two others: it has foreign keys on two columns, `left` and
`right` are the known tables that they lead to, and every other column belongs to its primary key
or only tells of times. -/
structure IsLink (t : Table) (known : List String) (left right : String) : Prop where
  keys : ∃ a b, t.foreignKeys = [(a, left), (b, right)]
  linking : ∀ c ∈ t.columns, c.name ∈ t.foreignKeys.map Prod.fst ∨ c.name ∈ t.primaryKey ∨
    c.name ∈ bookkeeping
  known : left ∈ known ∧ right ∈ known
  others : t.name ≠ left ∧ t.name ≠ right

/-- The tables that a link is between are found. -/
theorem linkedTables?_eq_some_iff {t : Table} {names : List String} {left right : String} :
    t.linkedTables? names = some (left, right) ↔ t.IsLink names left right := by
  unfold linkedTables?
  constructor
  · intro h
    dsimp only at h
    split at h
    next a l b r hkeys =>
        split at h <;> cases h
        next hall =>
          simp only [Bool.and_eq_true, List.all_eq_true, Bool.or_eq_true, List.contains_iff_mem,
            bne_iff_ne] at hall
          obtain ⟨⟨⟨⟨hlinking, hl⟩, hr⟩, hnl⟩, hnr⟩ := hall
          refine ⟨⟨a, b, hkeys⟩, fun c hc => ?_, ⟨hl, hr⟩, hnl, hnr⟩
          have := hlinking c hc
          rwa [or_assoc] at this
    next => cases h
  · rintro ⟨⟨a, b, hkeys⟩, hlinking, ⟨hl, hr⟩, hnl, hnr⟩
    have hall : (t.columns.all fun c => (t.foreignKeys.map Prod.fst).contains c.name ||
        t.primaryKey.contains c.name || bookkeeping.contains c.name) = true := by
      simp only [List.all_eq_true, Bool.or_eq_true, List.contains_iff_mem, or_assoc]
      exact hlinking
    dsimp only
    rw [hall, hkeys]
    simp [hl, hr, hnl, hnr]

/-- A link is between two tables alone. -/
theorem IsLink.unique {t : Table} {names : List String} {left right left' right' : String}
    (h : t.IsLink names left right) (h' : t.IsLink names left' right') :
    left' = left ∧ right' = right := by
  rw [← linkedTables?_eq_some_iff] at h h'
  rw [h, Option.some.injEq, Prod.mk.injEq] at h'
  exact ⟨h'.1.symm, h'.2.symm⟩

end Table

/-! ### The models of a snapshot -/

namespace Snapshot

def names (s : Snapshot) : List String := s.map Table.name

/-- A table of the name is a link. -/
def Links (s : Snapshot) (name : String) : Prop :=
  ∃ t ∈ s, t.name = name ∧ ∃ left right, t.IsLink s.names left right

/-- A table of the name is a link between tables that are none. -/
def Folds (s : Snapshot) (name : String) : Prop :=
  ∃ t ∈ s, t.name = name ∧ ∃ left right, t.IsLink s.names left right ∧ ¬ s.Links left ∧
    ¬ s.Links right

/-- The links are the tables of the snapshot that are links. -/
theorem mem_links_iff {s : Snapshot} {l : Link} :
    l ∈ s.links ↔ ∃ t ∈ s, t.name = l.table ∧ t.IsLink s.names l.left l.right := by
  unfold links
  rw [List.mem_filterMap]
  constructor
  · rintro ⟨t, ht, hl⟩
    obtain ⟨⟨left, right⟩, hlinked, rfl⟩ := Option.map_eq_some_iff.mp hl
    exact ⟨t, ht, rfl, Table.linkedTables?_eq_some_iff.mp hlinked⟩
  · rintro ⟨t, ht, hname, hlink⟩
    refine ⟨t, ht, ?_⟩
    have hlinked : t.linkedTables? (s.map Table.name) = some (l.left, l.right) :=
      Table.linkedTables?_eq_some_iff.mpr hlink
    rw [hlinked, Option.map_some, hname]

/-- A table is that of a link exactly if it links. -/
theorem mem_linkTables_iff {s : Snapshot} {name : String} :
    name ∈ s.links.map Link.table ↔ s.Links name := by
  unfold Links
  rw [List.mem_map]
  constructor
  · rintro ⟨l, hl, rfl⟩
    obtain ⟨t, ht, hname, hlink⟩ := mem_links_iff.mp hl
    exact ⟨t, ht, hname, _, _, hlink⟩
  · rintro ⟨t, ht, hname, left, right, hlink⟩
    exact ⟨⟨name, left, right⟩, mem_links_iff.mpr ⟨t, ht, hname, hlink⟩, rfl⟩

/-- A link is folded exactly if neither of its tables is that of a link. -/
theorem mem_foldedLinks_iff {s : Snapshot} {l : Link} :
    l ∈ s.foldedLinks ↔ l ∈ s.links ∧ ¬ s.Links l.left ∧ ¬ s.Links l.right := by
  unfold foldedLinks
  simp only [List.mem_filter, Bool.and_eq_true, Bool.not_eq_true', ← Bool.not_eq_true,
    List.contains_iff_mem, mem_linkTables_iff]

/-- The folded tables are those of folded links. -/
theorem mem_foldedTables_iff {s : Snapshot} {name : String} :
    name ∈ s.foldedLinks.map Link.table ↔ s.Folds name := by
  unfold Folds
  rw [List.mem_map]
  constructor
  · rintro ⟨l, hl, rfl⟩
    obtain ⟨hl, hleft, hright⟩ := mem_foldedLinks_iff.mp hl
    obtain ⟨t, ht, hname, hlink⟩ := mem_links_iff.mp hl
    exact ⟨t, ht, hname, _, _, hlink, hleft, hright⟩
  · rintro ⟨t, ht, hname, left, right, hlink, hleft, hright⟩
    exact ⟨⟨name, left, right⟩,
      mem_foldedLinks_iff.mpr ⟨mem_links_iff.mpr ⟨t, ht, hname, hlink⟩, hleft, hright⟩, rfl⟩

theorem not_contains_foldedTables_iff {s : Snapshot} {name : String} :
    (!(s.foldedLinks.map Link.table).contains name) = true ↔ ¬ s.Folds name := by
  rw [Bool.not_eq_true', ← Bool.not_eq_true, List.contains_iff_mem, mem_foldedTables_iff]

theorem Folds.links {s : Snapshot} {name : String} (h : s.Folds name) : s.Links name := by
  obtain ⟨t, ht, hname, left, right, hlink, -, -⟩ := h
  exact ⟨t, ht, hname, left, right, hlink⟩

/-- The model of a table with the fields of all links that are folded. -/
def withLinks (s : Snapshot) (m : Model) : Model := s.foldedLinks.foldl Model.withLink m

/-- The schema of a snapshot, without the journal. -/
theorem schema_ok_iff {s : Snapshot} {d : Dialect} {shown : Schema} :
    (s.schema d).outcome = .ok shown ↔ ∃ models, s.mapM (·.model d) = .ok models ∧
      shown = ⟨(models.filter fun m => !(s.foldedLinks.map Link.table).contains m.name).map
        s.withLinks⟩ := by
  unfold schema
  simp only [Journal.bind_ok_iff, Journal.ofExcept_ok_iff, Journal.pure_ok_iff]
  constructor
  · rintro ⟨models, hmodels, -, -, rfl⟩
    exact ⟨models, hmodels, rfl⟩
  · rintro ⟨models, hmodels, rfl⟩
    exact ⟨models, hmodels, (), rfl, rfl⟩

end Snapshot

theorem Model.withLink_name (m : Model) (l : Link) : (m.withLink l).name = m.name := by
  unfold Model.withLink
  split
  · rfl
  · split <;> rfl

theorem Snapshot.withLinks_name (s : Snapshot) (m : Model) : (s.withLinks m).name = m.name := by
  unfold withLinks
  generalize s.foldedLinks = ls
  induction ls generalizing m with
  | nil => rfl
  | cons l ls ih =>
      rw [List.foldl_cons, ih, m.withLink_name]

/-- The model of a table has the fields of its columns, and those for its foreign keys. -/
theorem Table.model_ok_iff {t : Table} {d : Dialect} {m : Model} :
    t.model d = .ok m ↔ ∃ fields,
      List.Forall₂ (fun c f => t.columnField d c = .ok f) t.columns fields ∧
      m = { name := t.name
            fields := fields ++ relationFields (fields.map Field.name) t.foreignKeys
            uniques := t.uniques.filter fun columns => columns.length != 1 } := by
  unfold Table.model
  show (t.columns.mapM (t.columnField d)).bind _ = _ ↔ _
  rw [Except.bind_eq_ok_iff]
  simp only [Except.mapM_ok_iff]
  constructor
  · rintro ⟨fields, hfields, h⟩
    cases h
    exact ⟨fields, hfields, rfl⟩
  · rintro ⟨fields, hfields, rfl⟩
    exact ⟨fields, hfields, rfl⟩

theorem Table.name_of_model {t : Table} {d : Dialect} {m : Model} (h : t.model d = .ok m) :
    m.name = t.name := by
  obtain ⟨_, -, rfl⟩ := model_ok_iff.mp h
  rfl

namespace Snapshot

theorem map_name_models {s : Snapshot} {d : Dialect} {models : List Model}
    (h : s.mapM (·.model d) = .ok models) : models.map Model.name = s.names :=
  (map_eq_of_forall₂ ((Except.mapM_ok_iff.mp h).imp fun _ _ hm =>
    (Table.name_of_model hm).symm)).symm

/-- The models of a snapshot come in the order of its tables. -/
theorem modelNames_schema_sublist {s : Snapshot} {d : Dialect} {shown : Schema}
    (h : (s.schema d).outcome = .ok shown) : shown.modelNames.Sublist s.names := by
  obtain ⟨models, hmodels, rfl⟩ := schema_ok_iff.mp h
  unfold Schema.modelNames
  rw [List.map_map, ← map_name_models hmodels]
  have hcomp : Model.name ∘ s.withLinks = Model.name := funext s.withLinks_name
  rw [hcomp]
  exact List.filter_sublist.map _

/-- **The models of a snapshot** are its tables, less those that are folded. -/
theorem mem_modelNames_schema_iff {s : Snapshot} {d : Dialect} {shown : Schema}
    (h : (s.schema d).outcome = .ok shown) {name : String} :
    name ∈ shown.modelNames ↔ name ∈ s.names ∧ ¬ s.Folds name := by
  obtain ⟨models, hmodels, rfl⟩ := schema_ok_iff.mp h
  unfold Schema.modelNames
  rw [List.map_map, ← map_name_models hmodels]
  simp only [List.mem_map, List.mem_filter, Function.comp_apply, withLinks_name,
    not_contains_foldedTables_iff]
  constructor
  · rintro ⟨m, ⟨hm, hnot⟩, rfl⟩
    exact ⟨⟨m, hm, rfl⟩, hnot⟩
  · rintro ⟨⟨m, hm, rfl⟩, hnot⟩
    exact ⟨m, ⟨hm, hnot⟩, rfl⟩

end Snapshot

end Schemata
