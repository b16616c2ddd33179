import Schemata.Proofs.Plan.References
import Schemata.Proofs.Schema.Compiled

/-!
# Proofs — the tables of a fresh script

With nothing deployed, a script creates a table for each model and one for each pair of models with
a many-to-many relation (`Plan.createTable_mem_fresh_iff`).  Models have different names, and a name
that is put together for a pair is the name of no model.  Nothing else is seen to: a name that is
given to a join table may be taken, and two pairs may be written alike where an underscore in a name
is read as the one between two names (`JoinTable.Straddles`).  The tables have different names
unless one of these happens (`Plan.createdTables_nodup_iff`).
-/

namespace Schemata

/-! ### Names put together -/

/-- Two texts with a mark between them are written alike only if they are the same, or the mark is
in one of them. -/
theorem append_cons_eq_append_cons_iff {α : Type} {mark : α} {l r l' r' : List α} :
    l ++ mark :: r = l' ++ mark :: r' ↔ (l = l' ∧ r = r') ∨
      (∃ middle, l' = l ++ mark :: middle ∧ r = middle ++ mark :: r') ∨
      ∃ middle, l = l' ++ mark :: middle ∧ r' = middle ++ mark :: r := by
  constructor
  · intro h
    rcases List.append_eq_append_iff.mp h with ⟨middle, hl, hr⟩ | ⟨middle, hl, hr⟩
    · cases middle with
      | nil => exact .inl ⟨by rw [hl, List.append_nil], (List.cons.inj hr).2⟩
      | cons c middle =>
          obtain ⟨rfl, htail⟩ := List.cons.inj hr
          exact .inr (.inl ⟨middle, hl, htail⟩)
    · cases middle with
      | nil => exact .inl ⟨by rw [hl, List.append_nil], (List.cons.inj hr).2.symm⟩
      | cons c middle =>
          obtain ⟨rfl, htail⟩ := List.cons.inj hr
          exact .inr (.inr ⟨middle, hl, htail⟩)
  · rintro (⟨rfl, rfl⟩ | ⟨middle, rfl, rfl⟩ | ⟨middle, rfl, rfl⟩) <;> simp

namespace JoinTable

/-- The name that is put together for the table. -/
def written (j : JoinTable) : String := "_" ++ j.left ++ "_" ++ j.right

/-- The pairs of the two tables are written alike: what ends the one name on the left begins the
other one on the right. -/
def Straddles (j k : JoinTable) : Prop :=
  ∃ middle, k.left = j.left ++ "_" ++ middle ∧ j.right = middle ++ "_" ++ k.right

theorem not_straddles_self (j : JoinTable) : ¬ j.Straddles j := by
  rintro ⟨middle, hleft, -⟩
  have hlength := congrArg String.length hleft
  rw [String.length_append, String.length_append] at hlength
  have hmark : "_".length = 1 := rfl
  omega

/-- Two join tables are written alike exactly if they are between the same models, or one pair
straddles the other. -/
theorem written_eq_iff {j k : JoinTable} :
    j.written = k.written ↔ (j.left = k.left ∧ j.right = k.right) ∨ j.Straddles k ∨
      k.Straddles j := by
  have hchars : ∀ i : JoinTable,
      i.written.toList = '_' :: (i.left.toList ++ '_' :: i.right.toList) := fun i => by
    simp [written]
  have hstraddles : ∀ i i' : JoinTable, i.Straddles i' ↔ ∃ middle,
      i'.left.toList = i.left.toList ++ '_' :: middle ∧
        i.right.toList = middle ++ '_' :: i'.right.toList := fun i i' => by
    constructor
    · rintro ⟨middle, hl, hr⟩
      exact ⟨middle.toList, by simp [hl], by simp [hr]⟩
    · rintro ⟨middle, hl, hr⟩
      refine ⟨String.ofList middle, String.toList_inj.mp ?_, String.toList_inj.mp ?_⟩
      · simp [hl]
      · simp [hr]
  rw [← String.toList_inj, hchars, hchars, List.cons_eq_cons, and_iff_right rfl,
    append_cons_eq_append_cons_iff, String.toList_inj, String.toList_inj, hstraddles, hstraddles]

end JoinTable

/-! ### Join tables -/

namespace Schema

variable {S : Schema} {j k : JoinTable}

/-- A join table is one of a pair, with the name that is given for it or else the written one. -/
theorem mem_joinTables_iff : j ∈ S.joinTables ↔ (j.left, j.right) ∈ S.pairs ∧
    j.name = (S.givenName? j.left j.right).getD j.written := by
  unfold joinTables
  rw [List.mem_map]
  constructor
  · rintro ⟨⟨left, right⟩, hpair, rfl⟩
    exact ⟨hpair, rfl⟩
  · rintro ⟨hpair, hname⟩
    exact ⟨_, hpair, by rw [JoinTable.mk.injEq]; exact ⟨hname.symm, rfl, rfl⟩⟩

/-- A pair has one join table. -/
theorem eq_of_mem_joinTables (hj : j ∈ S.joinTables) (hk : k ∈ S.joinTables)
    (hleft : j.left = k.left) (hright : j.right = k.right) : j = k := by
  have hname : j.name = k.name := by
    rw [(mem_joinTables_iff.mp hj).2, (mem_joinTables_iff.mp hk).2, JoinTable.written,
      JoinTable.written, hleft, hright]
  cases j
  cases k
  rw [JoinTable.mk.injEq]
  exact ⟨hname, hleft, hright⟩

theorem joinTables_nodup (S : Schema) : S.joinTables.Nodup :=
  (nodup_eraseDups _ : S.pairs.Nodup).map fun p q h => by
    rw [JoinTable.mk.injEq] at h
    exact Prod.ext h.2.1 h.2.2

/-- The names of join tables do not clash: a name that is given is no model's and no other join
table's, and no two pairs without a name are written alike. -/
structure JoinsApart (S : Schema) : Prop where
  given : ∀ j ∈ S.joinTables, (S.givenName? j.left j.right).isSome →
    j.name ∉ S.modelNames ∧ ∀ k ∈ S.joinTables, k.name = j.name → k = j
  written : ∀ j ∈ S.joinTables, ∀ k ∈ S.joinTables, S.givenName? j.left j.right = none →
    S.givenName? k.left k.right = none → ¬ j.Straddles k

/-- A join table without a given name has the one that is put together. -/
theorem name_eq_written (hj : j ∈ S.joinTables) (h : S.givenName? j.left j.right = none) :
    j.name = j.written := by
  rw [(mem_joinTables_iff.mp hj).2, h, Option.getD_none]

/-- No model has a name that is put together. -/
theorem IsAccepted.written_not_mem (hS : S.IsAccepted) (j : JoinTable) :
    j.written ∉ S.modelNames := by
  intro hmem
  obtain ⟨m, hm, hname⟩ := List.mem_map.mp hmem
  obtain ⟨c, cs, hchars, hc⟩ := exists_cons_of_isSnakeCase (hS.isSnakeCase hm).1
  rw [hname, JoinTable.written, String.toList_append, String.toList_append,
    String.toList_append] at hchars
  obtain rfl : '_' = c := (List.cons.inj hchars).1
  exact absurd hc (by decide)

/-- The names of the models and of the join tables are different just where those of join tables do
not clash. -/
theorem IsAccepted.names_nodup_iff (hS : S.IsAccepted) :
    (S.modelNames ++ S.joinTables.map JoinTable.name).Nodup ↔ S.JoinsApart := by
  rw [List.nodup_append, List.nodup_map_iff_inj_on S.joinTables_nodup,
    and_iff_right hS.modelNames_nodup]
  constructor
  · rintro ⟨hjoins, happart⟩
    refine ⟨fun j hj _ => ⟨fun hmem => ?_, fun k hk hname => hjoins k hk j hj hname⟩,
      fun j hj k hk hgiven hgiven' hstraddles => ?_⟩
    · exact happart j.name hmem j.name (List.mem_map_of_mem hj) rfl
    · have hname : j.name = k.name := by
        rw [name_eq_written hj hgiven, name_eq_written hk hgiven']
        exact JoinTable.written_eq_iff.mpr (.inr (.inl hstraddles))
      obtain rfl := hjoins j hj k hk hname
      exact j.not_straddles_self hstraddles
  · intro h
    refine ⟨fun j hj k hk hname => ?_, fun name hmem joined hjoined heq => ?_⟩
    · cases hgiven : S.givenName? j.left j.right with
      | some _ => exact ((h.given j hj (by rw [hgiven]; rfl)).2 k hk hname.symm).symm
      | none =>
          cases hgiven' : S.givenName? k.left k.right with
          | some _ => exact (h.given k hk (by rw [hgiven']; rfl)).2 j hj hname
          | none =>
              rw [name_eq_written hj hgiven, name_eq_written hk hgiven',
                JoinTable.written_eq_iff] at hname
              rcases hname with ⟨hleft, hright⟩ | hstraddles | hstraddles
              · exact eq_of_mem_joinTables hj hk hleft hright
              · exact absurd hstraddles (h.written j hj k hk hgiven hgiven')
              · exact absurd hstraddles (h.written k hk j hj hgiven' hgiven)
    · obtain ⟨j, hj, rfl⟩ := List.mem_map.mp hjoined
      rw [heq] at hmem
      cases hgiven : S.givenName? j.left j.right with
      | some _ => exact (h.given j hj (by rw [hgiven]; rfl)).1 hmem
      | none => exact hS.written_not_mem j (name_eq_written hj hgiven ▸ hmem)

end Schema

/-! ### Created tables -/

/-- The table that a statement creates. -/
def Statement.created? : Statement → Option String
  | .createTable table _ => some table
  | _ => none

namespace Plan

/-- The tables that a script creates. -/
def createdTables (stmts : List Statement) : List String := stmts.filterMap Statement.created?

variable {d : Dialect} {S : Schema} {stmts : List Statement} {table : String}

/-- **What a fresh script creates**: the tables of the models, and the join tables. -/
theorem createTable_mem_fresh_iff (hnames : S.modelNames.Nodup)
    (h : (plan d S none).outcome = .ok stmts) {elements : List TableElement} :
    .createTable table elements ∈ stmts ↔
      (∃ m ∈ S.models, table = m.name ∧ elements = m.elements d) ∨
        ∃ j ∈ S.joinTables, table = j.name ∧ elements = linkElements d S j := by
  obtain ⟨-, rfl⟩ := createAll_ok_iff.mp h
  have hmodels : ∀ m, m ∈ inOrder S S.modelNames ↔ m ∈ S.models := fun m => by
    rw [mem_inOrder_iff hnames]
    exact and_iff_left_of_imp List.mem_map_of_mem
  simp only [List.mem_append, List.mem_map, hmodels, Model.creation, linkCreation,
    Statement.createTable.injEq, eq_comm]

/-- The tables of a fresh script are those of the models and the join tables, in some order. -/
theorem createdTables_perm (h : (plan d S none).outcome = .ok stmts) :
    (createdTables stmts).Perm (S.modelNames ++ S.joinTables.map JoinTable.name) := by
  obtain ⟨-, rfl⟩ := createAll_ok_iff.mp h
  have hmodels : createdTables ((inOrder S S.modelNames).map (·.creation d)) =
      (inOrder S S.modelNames).map Model.name := by
    unfold createdTables
    rw [List.filterMap_map, ← List.filterMap_eq_map]
    rfl
  have hjoins : createdTables (S.joinTables.map (linkCreation d S)) =
      S.joinTables.map JoinTable.name := by
    unfold createdTables
    rw [List.filterMap_map, ← List.filterMap_eq_map]
    rfl
  unfold createdTables at hmodels hjoins ⊢
  rw [List.filterMap_append, hmodels, hjoins]
  exact (map_name_inOrder_perm fun _ h => h).append_right _

/-- **The tables of a fresh script.**  A table is created for each model and for each pair of models
with a many-to-many relation.  The models have different names, and a join table without a given
name has that of no model.  All tables have different names just where those of join tables do not
clash. -/
theorem createdTables_nodup_iff (hS : S.IsAccepted) (h : (plan d S none).outcome = .ok stmts) :
    (createdTables stmts).Perm (S.modelNames ++ S.joinTables.map JoinTable.name) ∧
      S.modelNames.Nodup ∧
      (∀ j ∈ S.joinTables, S.givenName? j.left j.right = none → j.name ∉ S.modelNames) ∧
      ((createdTables stmts).Nodup ↔ S.JoinsApart) := by
  have hperm := createdTables_perm h
  refine ⟨hperm, hS.modelNames_nodup, fun j hj hgiven => ?_, ?_⟩
  · rw [Schema.name_eq_written hj hgiven]
    exact hS.written_not_mem j
  · rw [hperm.nodup_iff]
    exact hS.names_nodup_iff

/-- Users and tags have tables with names of their own, and so has the one between them. -/
theorem taggedUsers_created : ∃ stmts, (plan .postgres taggedUsers none).outcome = .ok stmts ∧
    "_tag_user" ∈ createdTables stmts ∧ (createdTables stmts).Nodup := by
  obtain ⟨stmts, hplan⟩ : ∃ stmts, (plan .postgres taggedUsers none).outcome = .ok stmts :=
    ⟨_, by with_unfolding_all rfl⟩
  obtain ⟨hperm, -, -, hnodup⟩ := createdTables_nodup_iff taggedUsers_compiles.isAccepted hplan
  have hjoins : taggedUsers.joinTables = [⟨"_tag_user", "tag", "user"⟩] := by decide +kernel
  have hnone : taggedUsers.givenName? "tag" "user" = none := by decide +kernel
  refine ⟨stmts, hplan, hperm.mem_iff.mpr ?_, hnodup.mpr ⟨?_, ?_⟩⟩ <;> rw [hjoins]
  · exact List.mem_append_right _ List.mem_cons_self
  · simp [hnone]
  · simp [JoinTable.not_straddles_self]

/-- A source with a many-to-many relation between groups and the roles of users, and one between the
roles of groups and users. -/
def groupRolesSource : String :=
  "model group \x7b\n  users role_user[] @many_to_many\n\x7d\nmodel role_user \x7b\n\x7d\n" ++
    "model group_role \x7b\n  users user[] @many_to_many\n\x7d\nmodel user \x7b\n\x7d\n"

/-- The schema of that source. -/
def groupRoles : Schema :=
  ⟨[{ name := "group"
      fields :=
        [{ name := "users", typeName := "role_user", isArray := true
           relation := some ⟨.manyToMany, none⟩, position := ⟨2, 3⟩ }]
      position := ⟨1, 1⟩ },
    { name := "role_user", position := ⟨4, 1⟩ },
    { name := "group_role"
      fields :=
        [{ name := "users", typeName := "user", isArray := true
           relation := some ⟨.manyToMany, none⟩, position := ⟨7, 3⟩ }]
      position := ⟨6, 1⟩ },
    { name := "user", position := ⟨9, 1⟩ }]⟩

theorem groupRoles_compiles : groupRoles.Compiles :=
  @Schema.Compiles.of_source groupRolesSource _ groupRoles
    (Text.toList_append_of_eq (Text.toList_of_eq rfl) rfl) (by decide +kernel)

/-- **Two join tables of one name**: both pairs are written `_group_role_user`. -/
theorem groupRoles_clash : groupRoles.IsAccepted ∧
    ∃ stmts, (plan .postgres groupRoles none).outcome = .ok stmts ∧
      createdTables stmts =
        ["group", "role_user", "group_role", "user", "_group_role_user", "_group_role_user"] ∧
      ¬ (createdTables stmts).Nodup := by
  obtain ⟨stmts, hplan, hnames⟩ := Option.map_eq_some_iff.mp
    (show (plan .postgres groupRoles none).outcome.toOption.map createdTables =
      some ["group", "role_user", "group_role", "user", "_group_role_user", "_group_role_user"] by
        decide +kernel)
  exact ⟨groupRoles_compiles.isAccepted, stmts, Except.toOption_eq_some_iff.mp hplan, hnames,
    hnames ▸ by decide⟩

end Plan

end Schemata
