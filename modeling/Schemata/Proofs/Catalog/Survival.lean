import Schemata.Proofs.Catalog.Created
import Schemata.Proofs.Plan.Drops

/-!
# Proofs — catalogs — what survives of a schema

A schema is deployed, the database is looked at, and the models that are seen are compared with the
declared ones.  A model is still a model unless it looks like a link, and one that does is folded
where it links other models that do not (`Schema.Compiles.survives`).  The next plan creates the
tables of the folded ones again, and only those.

`likes_folded` is a source with a model that is lost on the way.
-/

namespace Schemata

/-- **What survives of a schema**: its fresh script is run, and the tables are read from the
catalog.  A model is there again unless its table is folded.  Only a model that looks like a link
has its table folded, and one that looks like a link between others that do not always has; the
other tables that are folded are join tables.  The next plan creates a table just for each model
whose table was folded. -/
theorem Schema.Compiles.survives {S : Schema} {s : Snapshot} {stmts : List Statement}
    (hS : S.Compiles) (hplan : (plan .postgres S none).outcome = .ok stmts)
    (hs : s.Reports stmts) :
    ∃ shown, (s.schema .postgres).outcome = .ok shown ∧
      (∀ m ∈ S.models, m.name ∈ shown.modelNames ↔ ¬ s.Folds m.name) ∧
      (∀ m ∈ S.models, s.Folds m.name → m.IsLinkLike) ∧
      (∀ m ∈ S.models, m.IsLinkLike →
        (∀ key target, m.HoldsKey key target → target ≠ m.name ∧
          ∀ n ∈ S.models, n.name = target → ¬ n.IsLinkLike) → s.Folds m.name) ∧
      (∀ name, s.Folds name → name ∈ S.modelNames ∨ ∃ j ∈ S.joinTables, name = j.name) ∧
      ∃ next, (plan .postgres S (some shown)).outcome = .ok next ∧
        ∀ name, (∃ elements, .createTable name elements ∈ next) ↔
          name ∈ S.modelNames ∧ s.Folds name := by
  have hdeployed : S.Deployed s := hS.deployed hplan hs
  obtain ⟨shown, hshown⟩ := hdeployed.exists_schema
  have hkept : ∀ name ∈ S.modelNames, name ∈ shown.modelNames ↔ ¬ s.Folds name :=
    fun name hname => by
      rw [Snapshot.mem_modelNames_schema_iff hshown]
      exact and_iff_right (hdeployed.mem_names hname)
  refine ⟨shown, hshown, fun m hm => hkept _ (List.mem_map_of_mem hm),
    fun m hm hfolds => hdeployed.isLinkLike_of_links hm hfolds.links,
    fun m hm hlike htargets => hdeployed.folds_model hm hlike htargets, fun name hfolds => ?_,
    Plan.migration .postgres S shown, hdeployed.plan_outcome shown, fun name => ?_⟩
  · obtain ⟨t, ht, rfl, -⟩ := hfolds
    exact (hdeployed.only t ht).imp_left fun ⟨m, hm, hname⟩ => hname ▸ List.mem_map_of_mem hm
  · rw [Plan.createTable_mem_migration_iff]
    exact and_congr_right fun hname => by rw [hkept name hname, not_not]

/-- A source with a model of likes that holds nothing but who likes which post. -/
def likesSource : String :=
  "model user \x7b\n  id int @primary_key\n\x7d\nmodel post \x7b\n  id int @primary_key\n\x7d\n" ++
    "model like \x7b\n  user_id int\n  post_id int\n  user user @many_to_one(user_id)\n" ++
    "  post post @many_to_one(post_id)\n\x7d\n"

/-- The schema of that source. -/
def likes : Schema :=
  ⟨[{ name := "user"
      fields := [{ name := "id", typeName := "int", isPrimaryKey := true, position := ⟨2, 3⟩ }]
      position := ⟨1, 1⟩ },
    { name := "post"
      fields := [{ name := "id", typeName := "int", isPrimaryKey := true, position := ⟨5, 3⟩ }]
      position := ⟨4, 1⟩ },
    { name := "like"
      fields :=
        [{ name := "user_id", typeName := "int", position := ⟨8, 3⟩ },
         { name := "post_id", typeName := "int", position := ⟨9, 3⟩ },
         { name := "user", typeName := "user", relation := some ⟨.manyToOne, some "user_id"⟩
           position := ⟨10, 3⟩ },
         { name := "post", typeName := "post", relation := some ⟨.manyToOne, some "post_id"⟩
           position := ⟨11, 3⟩ }]
      position := ⟨7, 1⟩ }]⟩

theorem likes_compiles : likes.Compiles :=
  @Schema.Compiles.of_source likesSource _ likes
    (Text.toList_append_of_eq (Text.toList_append_of_eq (Text.toList_of_eq rfl) rfl) rfl)
    (by decide +kernel)

/-- The tables of that source, as the catalog reports them. -/
def likesDeployed : Snapshot :=
  [Plan.keyTable "user", Plan.keyTable "post",
   { name := "like"
     columns :=
       [{ name := "user_id", dataType := "integer", elementType := "int4" },
        { name := "post_id", dataType := "integer", elementType := "int4" }]
     constraints :=
       [{ name := "like_user_id_fkey", kind := "FOREIGN KEY", columns := ["user_id"]
          table := some "user", targets := some ["id"] },
        { name := "like_post_id_fkey", kind := "FOREIGN KEY", columns := ["post_id"]
          table := some "post", targets := some ["id"] }] }]

/-- The tables of likes are reported of their script. -/
theorem likes_reported : ∃ stmts, (plan .postgres likes none).outcome = .ok stmts ∧
    likesDeployed.Reports stmts := by
  refine ⟨_, by with_unfolding_all rfl, .of_forall₂ (by decide) ?_⟩
  refine .cons ⟨_, rfl, ?user⟩ (.cons ⟨_, rfl, ?post⟩ (.cons ⟨_, rfl, ?like⟩ .nil))
  case user => exact ⟨.cons ⟨rfl, by decide +kernel, rfl, rfl⟩ .nil, fun c => Iff.rfl⟩
  case post => exact ⟨.cons ⟨rfl, by decide +kernel, rfl, rfl⟩ .nil, fun c => Iff.rfl⟩
  case like =>
    refine ⟨.cons ⟨rfl, ?_, rfl, rfl⟩ (.cons ⟨rfl, ?_, rfl, rfl⟩ .nil), fun c => Iff.rfl⟩
    · decide +kernel
    · decide +kernel

/-- Users and posts are still models, and no table is created for them. -/
theorem likes_survive : ∃ shown next, (likesDeployed.schema .postgres).outcome = .ok shown ∧
    (plan .postgres likes (some shown)).outcome = .ok next ∧
    ∀ name ∈ ["user", "post"], name ∈ shown.modelNames ∧
      ∀ elements, .createTable name elements ∉ next := by
  obtain ⟨stmts, hplan, hreports⟩ := likes_reported
  obtain ⟨shown, hshown, hkept, hlike, -, -, next, hnext, hcreated⟩ :=
    likes_compiles.survives hplan hreports
  -- a model without foreign keys does not look like a link
  have hkeyless : ∀ m ∈ likes.models, m.name ∈ ["user", "post"] →
      ∀ f ∈ m.fields, f.foreignKeyTarget? = none := by decide +kernel
  have hnot : ∀ m ∈ likes.models, m.name ∈ ["user", "post"] → ¬ likesDeployed.Folds m.name :=
    fun m hm hname hfolds => Model.not_isLinkLike (hkeyless m hm hname) (hlike m hm hfolds)
  refine ⟨shown, next, hshown, hnext, fun name hname => ?_⟩
  obtain ⟨m, hm, rfl⟩ : ∃ m ∈ likes.models, m.name = name := by
    have hmodel : ∀ name ∈ ["user", "post"], ∃ m ∈ likes.models, m.name = name := by decide +kernel
    exact hmodel name hname
  exact ⟨(hkept m hm).mpr (hnot m hm hname), fun elements h =>
    hnot m hm hname ((hcreated m.name).mp ⟨elements, h⟩).2⟩

/-- **A declared model is lost**: likes are taken for a join table, and the next plan creates their
table a second time. -/
theorem likes_folded : ∃ stmts shown, likes.Compiles ∧
    (plan .postgres likes none).outcome = .ok stmts ∧ likesDeployed.Reports stmts ∧
    (likesDeployed.schema .postgres).outcome = .ok shown ∧
    "like" ∈ likes.modelNames ∧ "like" ∉ shown.modelNames ∧ likes.joinTables = [] ∧
    ∃ elements, (plan .postgres likes (some shown)).outcome = .ok [.createTable "like" elements] := by
  obtain ⟨stmts, hplan, hreports⟩ := likes_reported
  obtain ⟨shown, hshown, hnames, hnext⟩ : ∃ shown,
      (likesDeployed.schema .postgres).outcome = .ok shown ∧ shown.modelNames = ["user", "post"] ∧
        ∃ elements, (plan .postgres likes (some shown)).outcome =
          .ok [.createTable "like" elements] :=
    ⟨_, by with_unfolding_all rfl, by with_unfolding_all rfl, _, by with_unfolding_all rfl⟩
  refine ⟨stmts, shown, likes_compiles, hplan, hreports, hshown, by decide, ?_, by decide +kernel,
    hnext⟩
  rw [hnames]
  decide

end Schemata
