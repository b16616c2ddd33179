import Mathlib.Data.List.Permutation
import Schemata.Proofs.Catalog.Relations
import Schemata.Proofs.Plan.Precedence

/-!
# Proofs — catalogs — the order of drops

In which order a plan drops tables that refer to each other in the database.  Where no table refers
to itself through others (`Snapshot.Acyclic`), a table is dropped before those to which it shows its
foreign keys.  A foreign key that is not shown says nothing about the order: where two tables are
dropped, it is then the one that is listed later that goes first
(`Snapshot.dropTable_idxOf_lt_iff`).
-/

namespace Schemata

/-- What comes later in a list without repetition is found later. -/
theorem idxOf_lt_of_sublist {α : Type} [BEq α] [LawfulBEq α] {xs : List α} {a b : α}
    (h : [a, b].Sublist xs) (hnodup : xs.Nodup) : xs.idxOf a < xs.idxOf b := by
  have hne : a ≠ b := by simpa using hnodup.sublist h
  refine (idxOf_lt_iff_of_sublist h hnodup (by simp) (by simp)).mp ?_
  rw [List.idxOf_cons_self, List.idxOf_cons_ne _ hne]
  exact Nat.succ_pos _

namespace Dependencies

variable {deps : Dependencies} {tables : List String}

/-- The first table of a list is placed first if it depends on none of the others. -/
theorem sort_cons_of_free {first : String}
    (h : ∀ table ∈ tables, ¬ deps.DependsOn first table) :
    ∃ rest, (deps.sort (first :: tables)).1 ++ (deps.sort (first :: tables)).2 =
      first :: rest := by
  have hneeds : deps.within (first :: tables) first = [] := by
    refine List.eq_nil_iff_forall_not_mem.mpr fun table htable => ?_
    obtain ⟨hdepends, hmem⟩ := mem_within_iff.mp htable
    exact h table ((List.mem_cons.mp hmem).resolve_left hdepends.2) hdepends
  have hready : (first :: tables).find? (fun t =>
      (deps.within (first :: tables) t).all (List.contains [])) = some first := by
    rw [List.find?_cons, hneeds]
    rfl
  unfold sort
  rw [place_of_ready hready]
  exact ⟨_, rfl⟩

end Dependencies

/-! ### Statements -/

namespace Plan

variable {d : Dialect} {desired previous : Schema}

theorem dropOrder_nodup (h : previous.modelNames.Nodup) : (dropOrder desired previous).Nodup :=
  (dropOrder_perm desired previous).nodup_iff.mpr (h.filter _)

/-- The tables are dropped in their order, whatever is done before. -/
theorem dropTable_idxOf_lt (h : previous.modelNames.Nodup) {a b : String}
    (hab : [a, b].Sublist (dropOrder desired previous)) :
    (migration d desired previous).idxOf (.dropTable a) <
      (migration d desired previous).idxOf (.dropTable b) := by
  have hnone : ∀ name, Statement.dropTable name ∉
      (inOrder desired (added desired previous)).map (·.creation d) ++
        desired.models.flatMap (kept d previous) := fun name hmem => by
    rcases List.mem_append.mp hmem with hmem | hmem
    · obtain ⟨m, -, hm⟩ := List.mem_map.mp hmem
      cases hm
    · exact not_mem_flatMap_kept rfl hmem
  unfold migration
  rw [List.idxOf_append_of_notMem (hnone a), List.idxOf_append_of_notMem (hnone b)]
  refine Nat.add_lt_add_left (idxOf_lt_of_sublist (hab.map Statement.dropTable) ?_) _
  exact (dropOrder_nodup h).map fun _ _ h => by cases h; rfl

/-- A table is dropped before those it depends on. -/
theorem sublist_dropOrder_of_dependsOn (hacyclic : previous.dependencies.Acyclic)
    {table target : String} (hdepends : previous.dependencies.DependsOn table target)
    (htable : table ∈ dropOrder desired previous) (htarget : target ∈ dropOrder desired previous) :
    [table, target].Sublist (dropOrder desired previous) := by
  obtain ⟨before, after, hsplit⟩ := List.append_of_mem htable
  have hafter : Statement.dropTable target ∈ after.map .dropTable :=
    dropTable_mem_post hacyclic (by rw [hsplit, List.map_append, List.map_cons]) hdepends
      ((dropOrder_perm desired previous).mem_iff.mp htarget)
  obtain ⟨name, hname, heq⟩ := List.mem_map.mp hafter
  cases heq
  rw [hsplit]
  exact ((List.singleton_sublist.mpr hname).cons_cons table).trans (List.sublist_append_right _ _)

/-- Of two tables that are dropped, the second one is dropped first if the first one does not depend
on it. -/
theorem dropOrder_eq_pair {first second : String} (h : removed desired previous = [first, second])
    (hfree : ¬ previous.dependencies.DependsOn first second) :
    dropOrder desired previous = [second, first] := by
  obtain ⟨rest, hsort⟩ := Dependencies.sort_cons_of_free (List.forall_mem_singleton.mpr hfree)
  have hperm := previous.dependencies.sort_perm [first, second]
  rw [hsort, List.perm_cons, List.perm_singleton] at hperm
  unfold dropOrder
  dsimp only
  rw [h, hsort, hperm]
  rfl

end Plan

/-! ### Tables that refer to each other -/

namespace Snapshot

/-- A table of the one name has a foreign key to the other table. -/
def RefersTo (s : Snapshot) (table target : String) : Prop :=
  target ≠ table ∧ ∃ t ∈ s, t.name = table ∧ ∃ column, t.Refers column target

/-- No table refers to itself through others. -/
def Acyclic (s : Snapshot) : Prop := ∀ table, ¬ Relation.TransGen s.RefersTo table table

theorem acyclic_of_rank {s : Snapshot} (rank : String → Nat)
    (h : ∀ t ∈ s, ∀ c ∈ t.constraints, ∀ target ∈ c.table, target ≠ t.name →
      rank target < rank t.name) : s.Acyclic := by
  refine not_transGen_self_of_rank rank fun table target hrefers => ?_
  obtain ⟨hne, t, ht, rfl, -, -, c, hc, -, -, htarget⟩ := hrefers
  exact h t ht c hc target htarget hne

variable {s : Snapshot} {d : Dialect} {shown : Schema}

/-- The dependencies of the schema are foreign keys of the tables. -/
theorem refersTo_of_dependsOn (h : (s.schema d).outcome = .ok shown) {table target : String}
    (hdepends : shown.dependencies.DependsOn table target) : s.RefersTo table target := by
  obtain ⟨hne, -, -, t, ht, hname, hshows⟩ := (dependsOn_iff h).mp hdepends
  exact ⟨hne, t, ht, hname, hshows.refers⟩

theorem Acyclic.schema (hacyclic : s.Acyclic) (h : (s.schema d).outcome = .ok shown) :
    shown.dependencies.Acyclic := fun table hpath =>
  hacyclic table (Relation.TransGen.mono (fun _ _ => refersTo_of_dependsOn h) _ _ hpath)

variable {e : Dialect} {desired : Schema}

/-- A table is dropped before those to which it shows its foreign keys. -/
theorem dropTable_idxOf_lt_of_shows (hnames : s.names.Nodup) (hacyclic : s.Acyclic)
    (h : (s.schema d).outcome = .ok shown) {t : Table} (ht : t ∈ s) {target : String}
    (hshows : t.Shows target) (hne : target ≠ t.name)
    (htable : t.name ∈ Plan.dropOrder desired shown)
    (htarget : target ∈ Plan.dropOrder desired shown) :
    (Plan.migration e desired shown).idxOf (.dropTable t.name) <
      (Plan.migration e desired shown).idxOf (.dropTable target) := by
  have hdepends : shown.dependencies.DependsOn t.name target := (dependsOn_iff h).mpr
    ⟨hne, (Plan.mem_dropOrder_iff.mp htable).1, (Plan.mem_dropOrder_iff.mp htarget).1, t, ht, rfl,
      hshows⟩
  exact Plan.dropTable_idxOf_lt (hnames.sublist (modelNames_schema_sublist h))
    (Plan.sublist_dropOrder_of_dependsOn (hacyclic.schema h) hdepends htable htarget)

/-- Of two tables that are dropped, one that refers to the other goes first just where it shows its
foreign keys or is listed later. -/
theorem dropTable_idxOf_lt_iff_of_pair (hnames : s.names.Nodup) (hacyclic : s.Acyclic)
    (h : (s.schema d).outcome = .ok shown) {t : Table} (ht : t ∈ s) {column target : String}
    (hrefers : t.Refers column target) (hne : target ≠ t.name)
    (hperm : (Plan.removed desired shown).Perm [t.name, target]) :
    (Plan.migration e desired shown).idxOf (.dropTable t.name) <
        (Plan.migration e desired shown).idxOf (.dropTable target) ↔
      t.Shows target ∨ s.names.idxOf target < s.names.idxOf t.name := by
  have hsub := modelNames_schema_sublist h
  have hdrop : ∀ name ∈ [t.name, target], name ∈ Plan.dropOrder desired shown := fun name hname =>
    (Plan.dropOrder_perm desired shown).mem_iff.mpr (hperm.mem_iff.mpr hname)
  have hlisted : (Plan.removed desired shown).Sublist s.names := List.filter_sublist.trans hsub
  -- what is listed first among the dropped tables is listed first in the database
  rcases List.perm_pair.mp hperm with hremoved | hremoved <;>
    have hbefore := idxOf_lt_of_sublist (hremoved ▸ hlisted) hnames
  · rw [or_iff_left hbefore.asymm]
    refine ⟨fun hlt => ?_, fun hshows => dropTable_idxOf_lt_of_shows hnames hacyclic h ht hshows hne
      (hdrop _ (by simp)) (hdrop _ (by simp))⟩
    by_contra hnot
    have horder := Plan.dropOrder_eq_pair hremoved fun hdepends => by
      obtain ⟨-, -, -, u, hu, hname, hshows⟩ := (dependsOn_iff h).mp hdepends
      exact hnot (List.inj_on_of_nodup_map hnames hu ht hname ▸ hshows)
    refine hlt.asymm (Plan.dropTable_idxOf_lt (hnames.sublist hsub) ?_)
    rw [horder]
  · have horder := Plan.dropOrder_eq_pair hremoved fun hdepends =>
      hacyclic t.name (.tail (.single ⟨hne, t, ht, rfl, column, hrefers⟩)
        (refersTo_of_dependsOn h hdepends))
    refine iff_of_true (Plan.dropTable_idxOf_lt (hnames.sublist hsub) ?_) (.inr hbefore)
    rw [horder]

/-- **In which order tables are dropped.**  No table of the database refers to itself through
others.  A table is dropped before those to which it shows its foreign keys.  Where two tables are
dropped and the one refers to the other, it is dropped first just where it shows its foreign keys,
or is listed after the other anyway. -/
theorem dropTable_idxOf_lt_iff {s : Snapshot} {d e : Dialect} {desired previous : Schema}
    {stmts : List Statement} (hnames : s.names.Nodup) (hacyclic : s.Acyclic)
    (hprevious : (s.schema d).outcome = .ok previous)
    (hplan : (plan e desired (some previous)).outcome = .ok stmts) :
    (∀ t ∈ s, ∀ target, t.Shows target → target ≠ t.name → .dropTable t.name ∈ stmts →
      .dropTable target ∈ stmts →
        stmts.idxOf (.dropTable t.name) < stmts.idxOf (.dropTable target)) ∧
    ∀ t ∈ s, ∀ column target, t.Refers column target → target ≠ t.name →
      (∀ name, .dropTable name ∈ stmts ↔ name = t.name ∨ name = target) →
        (stmts.idxOf (.dropTable t.name) < stmts.idxOf (.dropTable target) ↔
          t.Shows target ∨ s.names.idxOf target < s.names.idxOf t.name) := by
  obtain ⟨-, rfl⟩ := Plan.diff_ok_iff.mp hplan
  have hdropped : ∀ name, .dropTable name ∈ Plan.migration e desired previous ↔
      name ∈ Plan.dropOrder desired previous := fun name => by
    rw [Plan.dropTable_mem_migration_iff, Plan.mem_dropOrder_iff]
  simp only [hdropped]
  refine ⟨fun t ht target hshows hne htable htarget =>
      dropTable_idxOf_lt_of_shows hnames hacyclic hprevious ht hshows hne htable htarget,
    fun t ht column target hrefers hne honly =>
      dropTable_idxOf_lt_iff_of_pair hnames hacyclic hprevious ht hrefers hne ?_⟩
  have hremoved : (Plan.removed desired previous).Nodup :=
    (hnames.sublist (modelNames_schema_sublist hprevious)).filter _
  refine (List.perm_ext_iff_of_nodup hremoved (by simp [hne.symm])).mpr fun name => ?_
  rw [← (Plan.dropOrder_perm desired previous).mem_iff, honly]
  simp

/-- A table of bookings, with a foreign key to rooms. -/
def bookingTable (key : String) : Table :=
  { name := "booking"
    columns :=
      [{ name := "id", dataType := "integer", elementType := "int4", isNullable := false },
       { name := key, dataType := "integer", elementType := "int4" }]
    constraints :=
      [{ name := "booking_pkey", kind := "PRIMARY KEY", columns := ["id"] },
       { name := "booking_room_fkey", kind := "FOREIGN KEY", columns := [key]
         table := some "room", targets := some ["id"] }] }

/-- Bookings of rooms, and guests. -/
def hotel (key : String) : Snapshot :=
  [bookingTable key, Plan.keyTable "guest", Plan.keyTable "room"]

/-- The schema of guests. -/
def guests : Schema :=
  ⟨[{ name := "guest", fields := [{ name := "id", typeName := "int", isPrimaryKey := true }] }]⟩

theorem hotel_acyclic (key : String) : (hotel key).Acyclic := by
  refine acyclic_of_rank (fun table => if table = "booking" then 1 else 0) ?_
  simp [hotel, bookingTable, Plan.keyTable]

/-- Where the key has a name of its own, bookings are dropped before rooms. -/
theorem hotel_dropped : ∃ previous stmts,
    ((hotel "room_id").schema .postgres).outcome = .ok previous ∧
      (plan .postgres guests (some previous)).outcome = .ok stmts ∧
      .dropTable "room" ∈ stmts ∧
      stmts.idxOf (.dropTable "booking") < stmts.idxOf (.dropTable "room") := by
  obtain ⟨previous, hprevious, hplan⟩ : ∃ previous,
      ((hotel "room_id").schema .postgres).outcome = .ok previous ∧
        (plan .postgres guests (some previous)).outcome =
          .ok [.dropTable "booking", .dropTable "room"] :=
    ⟨_, by with_unfolding_all rfl, by with_unfolding_all rfl⟩
  have hshows : (bookingTable "room_id").Shows "room" :=
    ⟨⟨"room_id", by decide, by decide⟩, by decide, by decide⟩
  exact ⟨previous, _, hprevious, hplan, by decide,
    (dropTable_idxOf_lt_iff (by decide) (hotel_acyclic "room_id") hprevious hplan).1 _
      List.mem_cons_self "room" hshows (by decide) (by decide) (by decide)⟩

/-- Where the key is called like the table, rooms are dropped while bookings refer to them. -/
theorem hotel_misdropped : (hotel "room").Acyclic ∧ (hotel "room").RefersTo "booking" "room" ∧
    ∃ previous, ((hotel "room").schema .postgres).outcome = .ok previous ∧
      (plan .postgres guests (some previous)).outcome =
        .ok [.dropTable "room", .dropTable "booking"] := by
  refine ⟨hotel_acyclic "room", ⟨by decide, bookingTable "room", List.mem_cons_self, rfl, "room",
    by decide, ?_⟩, _, by with_unfolding_all rfl, by with_unfolding_all rfl⟩
  exact ⟨_, List.mem_cons_of_mem _ List.mem_cons_self, rfl, rfl, rfl⟩

end Snapshot

end Schemata
