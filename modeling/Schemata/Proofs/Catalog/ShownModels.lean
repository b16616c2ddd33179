import Schemata.Proofs.Catalog.FoldingLoop
import Schemata.Proofs.Plan.Drops

/-!
# Proofs — catalogs — the models that are shown

The models of the schema that a snapshot shows, told by the tables alone.  A table that joins two
others, neither of which does, is folded; of every other one there is a model, with its own fields
first and one more behind them for each folded table that leads to it (`Snapshot.ShowsModel`).

* `Snapshot.withLinks_eq` — the fields that are added to a model.
* `Snapshot.schema_folds` — what is folded and what is shown, and that no step of the folding fails.
-/

namespace Schemata

/-! ### Fields that are added -/

/-- A many-to-many field that stands for a table and tells nothing else but its name and type. -/
def Field.StandsFor (f : Field) (table : String) : Prop :=
  f = { name := f.name, typeName := f.typeName, isArray := true
        relation := some ⟨.manyToMany, some table⟩ }

/-- The link leads to the named model. -/
def Link.touches (l : Link) (name : String) : Bool := name == l.left || name == l.right

theorem Link.touches_iff {l : Link} {name : String} :
    l.touches name ↔ name = l.left ∨ name = l.right := by
  rw [touches, Bool.or_eq_true, beq_iff_eq, beq_iff_eq]

theorem Model.withLink_of_not_touches {m : Model} {l : Link} (h : ¬ l.touches m.name) :
    m.withLink l = m := by
  rw [Link.touches_iff, not_or] at h
  unfold withLink
  rw [if_neg h.1, if_neg h.2]

/-- A link that leads to a model adds one field, of the type of the other one. -/
theorem Model.exists_withLink_eq {m : Model} {l : Link} (h : l.touches m.name) :
    ∃ f : Field, m.withLink l = { m with fields := m.fields ++ [f] } ∧ f.StandsFor l.table ∧
      (m.name = l.left ∧ f.typeName = l.right ∨ m.name = l.right ∧ f.typeName = l.left) := by
  unfold withLink
  split
  next hleft => exact ⟨_, rfl, rfl, .inl ⟨hleft, rfl⟩⟩
  next hleft =>
    have hright := (Link.touches_iff.mp h).resolve_left hleft
    rw [if_pos hright]
    exact ⟨_, rfl, rfl, .inr ⟨hright, rfl⟩⟩

namespace Snapshot

variable {s : Snapshot} {d : Dialect} {t : Table} {shown : Schema}

/-- The table is folded and leads to the named model. -/
def foldsTo (s : Snapshot) (name : String) (t : Table) : Bool :=
  (s.foldedLink? t).any (·.touches name)

/-- A table is folded into a model exactly if it is folded and leads to it. -/
theorem foldsTo_iff {name : String} :
    s.foldsTo name t ↔ s.FoldsTable t ∧ ∃ column, t.LeadsTo column name := by
  unfold foldsTo
  rw [Option.any_eq_true, foldsTable_iff_exists_foldedLink]
  constructor
  · rintro ⟨l, hl, htouches⟩
    obtain ⟨-, hlink, -⟩ := foldedLink?_eq_some_iff.mp hl
    exact ⟨⟨l, hl⟩, hlink.joins.exists_leadsTo_iff.mpr (Link.touches_iff.mp htouches)⟩
  · rintro ⟨⟨l, hl⟩, hleads⟩
    obtain ⟨-, hlink, -⟩ := foldedLink?_eq_some_iff.mp hl
    exact ⟨l, hl, Link.touches_iff.mpr (hlink.joins.exists_leadsTo_iff.mp hleads)⟩

/-- The links of a row of tables add a field for each one that is folded and leads to the model, of
the type of the other table that it joins. -/
theorem foldl_withLink_eq (s : Snapshot) (m : Model) (ts : List Table) :
    ∃ more, (ts.filterMap s.foldedLink?).foldl Model.withLink m =
        { m with fields := m.fields ++ more } ∧
      List.Forall₂ (fun t f => t.Joins s.names m.name f.typeName ∧ f.StandsFor t.name)
        (ts.filter (s.foldsTo m.name)) more := by
  induction ts generalizing m with
  | nil => exact ⟨[], by simp, .nil⟩
  | cons t ts ih =>
      cases hl : s.foldedLink? t with
      | none =>
          have hnot : s.foldsTo m.name t = false := by simp [foldsTo, hl]
          rw [List.filterMap_cons_none hl, List.filter_cons_of_neg (by simp [hnot])]
          exact ih m
      | some l =>
          obtain ⟨hname, hlink, -⟩ := foldedLink?_eq_some_iff.mp hl
          have hfolds : s.foldsTo m.name t = l.touches m.name := by simp [foldsTo, hl]
          rw [List.filterMap_cons_some hl, List.foldl_cons]
          by_cases htouches : l.touches m.name
          · obtain ⟨f, hwith, hstands, hends⟩ := Model.exists_withLink_eq htouches
            obtain ⟨more, hmore, hrest⟩ := ih { m with fields := m.fields ++ [f] }
            refine ⟨f :: more, by rw [hwith, hmore, List.append_assoc]; rfl, ?_⟩
            rw [List.filter_cons_of_pos (hfolds.trans htouches)]
            refine .cons ⟨?_, hname ▸ hstands⟩ hrest
            rcases hends with ⟨hleft, htype⟩ | ⟨hright, htype⟩
            · rw [hleft, htype]
              exact hlink.joins
            · rw [hright, htype]
              exact hlink.joins.symm
          · rw [List.filter_cons_of_neg (by rwa [hfolds]), Model.withLink_of_not_touches htouches]
            exact ih m

/-- **The fields that are added** to a model. -/
theorem withLinks_eq (s : Snapshot) (m : Model) :
    ∃ more, s.withLinks m = { m with fields := m.fields ++ more } ∧
      List.Forall₂ (fun t f => t.Joins s.names m.name f.typeName ∧ f.StandsFor t.name)
        (s.filter (s.foldsTo m.name)) more := by
  unfold withLinks
  rw [foldedLinks_eq]
  exact s.foldl_withLink_eq m s

/-! ### Models that are shown -/

/-- The model that is shown of a table: its fields are those of the table, and behind them one for
each folded table that leads to it, in their order, of the type of the other table it joins. -/
def ShowsModel (s : Snapshot) (d : Dialect) (t : Table) (m : Model) : Prop :=
  ∃ bare joins more, t.model d = .ok bare ∧ joins.Sublist s ∧
    (∀ u, u ∈ joins ↔ u ∈ s ∧ s.FoldsTable u ∧ ∃ column, u.LeadsTo column t.name) ∧
    List.Forall₂ (fun u f => u.Joins s.names t.name f.typeName ∧ f.StandsFor u.name) joins more ∧
    m = { bare with fields := bare.fields ++ more }

theorem showsModel_withLinks {bare : Model} (h : t.model d = .ok bare) :
    s.ShowsModel d t (s.withLinks bare) := by
  obtain ⟨more, hmore, hrest⟩ := s.withLinks_eq bare
  rw [Table.name_of_model h] at hrest
  refine ⟨bare, _, more, h, List.filter_sublist, fun u => ?_, hrest, hmore⟩
  rw [List.mem_filter, foldsTo_iff]

/-- The models that are shown are those of the tables that are not folded, in their order. -/
theorem exists_forall₂_showsModel (hnames : s.names.Nodup) (h : (s.schema d).outcome = .ok shown) :
    ∃ kept, kept.Sublist s ∧ (∀ t, t ∈ kept ↔ t ∈ s ∧ ¬ s.FoldsTable t) ∧
      List.Forall₂ (s.ShowsModel d) kept shown.models := by
  obtain ⟨models, hmodels, rfl⟩ := schema_ok_iff.mp h
  have hforall : List.Forall₂ (fun t m => t ∈ s ∧ t.model d = .ok m) s models :=
    (List.forall₂_and_left _ _).mpr ⟨fun t ht => ht, Except.mapM_ok_iff.mp hmodels⟩
  have hkept : ∀ t, (s.foldedLink? t).isNone ↔ ¬ s.FoldsTable t := fun t => by
    rw [Option.isNone_iff_eq_none, Option.eq_none_iff_forall_ne_some,
      foldsTable_iff_exists_foldedLink, not_exists]
  refine ⟨s.filter fun t => (s.foldedLink? t).isNone, List.filter_sublist, fun t => ?_, ?_⟩
  · rw [List.mem_filter, hkept]
  · rw [List.forall₂_map_right_iff]
    refine (List.rel_filter (fun t m ⟨ht, hm⟩ => ?_) hforall).imp fun t m ⟨_, hm⟩ =>
      showsModel_withLinks hm
    exact (hkept t).trans ((not_congr (foldsTable_iff_folds hnames ht)).trans
      (Table.name_of_model hm ▸ not_contains_foldedTables_iff.symm))

/-- Of a snapshot with tables something is shown: what a folded table joins is not folded. -/
theorem exists_not_foldsTable (h : s ≠ []) : ∃ t ∈ s, ¬ s.FoldsTable t := by
  obtain ⟨t, ht⟩ := List.exists_mem_of_ne_nil s h
  by_cases hfolds : s.FoldsTable t
  · obtain ⟨left, right, hjoins, hfree⟩ := hfolds
    obtain ⟨_, _, _, -, -, hleft, -⟩ := hjoins
    obtain ⟨u, hu, rfl⟩ := List.mem_map.mp hleft
    exact ⟨u, hu, fun ⟨l, r, hu', _⟩ => hfree u hu (.inl rfl) l r hu'⟩
  · exact ⟨t, ht, hfolds⟩

/-- **What is folded and what is shown.**  A schema is shown if every table is read as a model.  The
tables are folded then step by step, and no step fails; every other table has its model, in their
order, and there is one unless there are no tables. -/
theorem schema_folds (hnames : s.names.Nodup) :
    ((∃ shown, (s.schema d).outcome = .ok shown) ↔ ∀ t ∈ s, ∃ m, t.model d = .ok m) ∧
    ∀ shown, (s.schema d).outcome = .ok shown →
      (∃ models, List.Forall₂ (fun t m => t.model d = .ok m) s models ∧
        s.foldAll? models = some shown.models) ∧
      (∃ kept, kept.Sublist s ∧ (∀ t, t ∈ kept ↔ t ∈ s ∧ ¬ s.FoldsTable t) ∧
        List.Forall₂ (s.ShowsModel d) kept shown.models) ∧
      (shown.models = [] ↔ s = []) := by
  refine ⟨⟨?_, fun h => ?_⟩, fun shown hshown => ?_⟩
  · rintro ⟨shown, hshown⟩ t ht
    obtain ⟨models, hmodels, -⟩ := schema_ok_iff.mp hshown
    obtain ⟨m, -, hm⟩ := exists_of_forall₂ (Except.mapM_ok_iff.mp hmodels) ht
    exact ⟨m, hm⟩
  · obtain ⟨models, hmodels⟩ := exists_forall₂ h
    exact ⟨_, schema_ok_iff.mpr ⟨models, Except.mapM_ok_iff.mpr hmodels, rfl⟩⟩
  · obtain ⟨kept, hsub, hmem, hkept⟩ := exists_forall₂_showsModel hnames hshown
    refine ⟨foldAll?_eq hnames hshown, ⟨kept, hsub, hmem, hkept⟩, fun hnone => ?_, fun hnone => ?_⟩
    · by_contra hsome
      obtain ⟨t, ht, hnot⟩ := exists_not_foldsTable hsome
      obtain ⟨m, hm, -⟩ := exists_of_forall₂ hkept ((hmem t).mpr ⟨ht, hnot⟩)
      rw [hnone] at hm
      cases hm
    · rw [hnone, List.sublist_nil] at hsub
      rw [hsub] at hkept
      exact List.forall₂_nil_left_iff.mp hkept

/-- A table that does nothing but join two others. -/
def joinTable (name left right : String) : Table :=
  { name
    columns :=
      [{ name := "A_id", dataType := "integer", elementType := "int4" },
       { name := "B_id", dataType := "integer", elementType := "int4" }]
    constraints :=
      [{ name := "A_key", kind := "FOREIGN KEY", columns := ["A_id"], table := some left },
       { name := "B_key", kind := "FOREIGN KEY", columns := ["B_id"], table := some right }] }

/-- Persons have friends and tags, and a friendship has tags as well. -/
def friends : Snapshot :=
  [joinTable "friend" "person" "person", joinTable "friend_tag" "friend" "tag",
   Plan.keyTable "person", joinTable "person_tag" "person" "tag", Plan.keyTable "tag"]

/-- Friendships are folded, as a field of persons; so the tags of a friendship are not. -/
theorem friends_folded : friends.names.Nodup ∧ ∃ models shown,
    (friends.schema .postgres).outcome = .ok shown ∧
      friends.foldAll? models = some shown.models ∧ shown.models ≠ [] ∧
      (shown.models.map fun m => (m.name, m.fields.map fun f => (f.name, f.typeName))) =
        [("friend_tag", [("A_id", "int"), ("B_id", "int"), ("friend", "friend"), ("tag", "tag")]),
         ("person", [("id", "int"), ("persons", "person"), ("tags", "tag")]),
         ("tag", [("id", "int"), ("persons", "person")])] := by
  have hnames : friends.names.Nodup := by decide +kernel
  obtain ⟨shown, hshown, hfields⟩ : ∃ shown, (friends.schema .postgres).outcome = .ok shown ∧
      (shown.models.map fun m => (m.name, m.fields.map fun f => (f.name, f.typeName))) =
        [("friend_tag", [("A_id", "int"), ("B_id", "int"), ("friend", "friend"), ("tag", "tag")]),
         ("person", [("id", "int"), ("persons", "person"), ("tags", "tag")]),
         ("tag", [("id", "int"), ("persons", "person")])] :=
    ⟨_, by with_unfolding_all rfl, by with_unfolding_all rfl⟩
  obtain ⟨⟨models, -, hfold⟩, -, hnone⟩ := (schema_folds hnames).2 shown hshown
  exact ⟨hnames, models, shown, hshown, hfold, fun h => List.cons_ne_nil _ _ (hnone.mp h), hfields⟩

end Snapshot

end Schemata
