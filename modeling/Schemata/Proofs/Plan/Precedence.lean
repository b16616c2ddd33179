import Schemata.Proofs.Plan.Drops
import Schemata.Proofs.Plan.References

/-!
# Proofs — what comes before what in a plan

A plan has four parts (`Plan.IsOrdered`): the tables of new models are created, then the join
tables, then kept tables are altered, and then the tables of the models that are gone are dropped.
Each new model is created once and each model that is gone is dropped once.

Where no table depends on itself through others, a foreign key never leads to a table that is not
there: a table is created after those it refers to (`Plan.createTable_mem_pre`), and dropped before
them (`Plan.dropTable_mem_post`).  `Plan.plan_isOrdered` puts this together for every plan.
-/

namespace Schemata

/-- The statement creates the table. -/
def Statement.creates (table : String) : Statement → Bool
  | .createTable t _ => t == table
  | _ => false

namespace Plan

/-- The names of the models that are deployed, if any are. -/
def deployedNames (previous : Option Schema) : List String :=
  (previous.map Schema.modelNames).getD []

/-- A plan in its parts, in their order: the tables of the new models, the join tables, what is done
to the columns of kept tables and told of them, and the tables that are dropped.  A join table may
be called like a model (`createdOnce` counts the tables of models alone); where none is called like
this one, its table is created once in the whole plan. -/
structure IsOrdered (d : Dialect) (desired : Schema) (previous : Option Schema)
    (creations joins alterations drops : List Statement) : Prop where
  created : creations.Perm
    ((desired.models.filter fun m => m.name ∉ deployedNames previous).map (·.creation d))
  createdOnce : ∀ m ∈ desired.models, m.name ∉ deployedNames previous →
    creations.countP (Statement.creates m.name) = 1
  createdOnceInAll : ∀ m ∈ desired.models, m.name ∉ deployedNames previous →
    (∀ j ∈ desired.joinTables, j.name ≠ m.name) →
      (creations ++ joins ++ alterations ++ drops).countP (Statement.creates m.name) = 1
  joined : joins = if previous.isNone then desired.joinTables.map (linkCreation d desired) else []
  altered : ∀ st ∈ alterations, st.isAlteration
  dropped : drops.Perm
    (((deployedNames previous).filter (· ∉ desired.modelNames)).map .dropTable)
  droppedOnce : ∀ name ∈ deployedNames previous, name ∉ desired.modelNames →
    drops.count (.dropTable name) = 1
  references : ∀ pre post table elements,
    creations = pre ++ Statement.createTable table elements :: post →
    ∀ column target key cascades, TableElement.foreignKey column target key cascades ∈ elements →
      target ≠ table → target ∈ desired.modelNames →
      (target ∈ deployedNames previous ∧ .dropTable target ∉ drops) ∨
        ∃ elements, .createTable target elements ∈ pre
  referencesDropped : ∀ pre post table, drops = pre ++ Statement.dropTable table :: post →
    ∀ target, .dropTable target ∈ drops →
      (∃ p ∈ previous, p.dependencies.DependsOn table target) → .dropTable target ∈ post

/-! ### Created tables -/

section

variable {d : Dialect} {s : Schema} {names : List String}

theorem inOrder_perm (h : s.modelNames.Nodup) (hnames : names.Nodup)
    (hsub : ∀ name ∈ names, name ∈ s.modelNames) :
    (inOrder s names).Perm (s.models.filter fun m => m.name ∈ names) := by
  have hnodup : (inOrder s names).Nodup :=
    ((map_name_inOrder_perm hsub).nodup_iff.mpr hnames).of_map
  refine (List.perm_ext_iff_of_nodup hnodup (h.of_map.filter _)).mpr fun m => ?_
  rw [mem_inOrder_iff h, List.mem_filter, decide_eq_true_iff]

/-- How often a table is created among the tables of models. -/
theorem countP_creates (ms : List Model) (table : String) :
    (ms.map (·.creation d)).countP (Statement.creates table) = (ms.map Model.name).count table := by
  rw [List.countP_map, List.count, List.countP_map]
  rfl

theorem creates_of_isAlteration {st : Statement} (h : st.isAlteration) (table : String) :
    st.creates table = false := by
  cases st <;> first | rfl | cases h

/-- Join tables of other names, alterations and drops create no table of the name. -/
theorem countP_creates_parts {table : String} (creations : List Statement)
    {links : List JoinTable} (hlinks : ∀ j ∈ links, j.name ≠ table) {alterations : List Statement}
    (haltered : ∀ st ∈ alterations, st.isAlteration) (tables : List String) :
    (creations ++ links.map (linkCreation d s) ++ alterations ++
        tables.map Statement.dropTable).countP (Statement.creates table) =
      creations.countP (Statement.creates table) := by
  have hjoins : (links.map (linkCreation d s)).countP (Statement.creates table) = 0 := by
    rw [List.countP_map, List.countP_eq_zero]
    exact fun j hj => by simpa [linkCreation, Statement.creates] using hlinks j hj
  have hkept : alterations.countP (Statement.creates table) = 0 := by
    rw [List.countP_eq_zero]
    exact fun st hst => by simp [creates_of_isAlteration (haltered st hst)]
  have hdrops : (tables.map Statement.dropTable).countP (Statement.creates table) = 0 := by
    rw [List.countP_map, List.countP_eq_zero]
    exact fun _ _ => Bool.false_ne_true
  simp only [List.countP_append, hjoins, hkept, hdrops, Nat.add_zero]

/-- **A table is created after those it refers to.** -/
theorem createTable_mem_pre (hacyclic : s.dependencies.Acyclic)
    (hsub : ∀ name ∈ names, name ∈ s.modelNames) {pre post : List Statement} {table : String}
    {elements : List TableElement}
    (h : (inOrder s names).map (·.creation d) = pre ++ .createTable table elements :: post)
    {column target key : String} {cascades : Bool}
    (hkey : .foreignKey column target key cascades ∈ elements) (hne : target ≠ table)
    (htarget : target ∈ names) : ∃ elements, .createTable target elements ∈ pre := by
  obtain ⟨before, rest, hsplit, rfl, hrest⟩ := List.map_eq_append_iff.mp h
  obtain ⟨m, after, rfl, hm, rfl⟩ := List.map_eq_cons_iff.mp hrest
  cases hm
  have hsort := s.dependencies.sort_perm names
  -- the order of the models is the order of their names
  have horder : (s.dependencies.sort names).1 ++ (s.dependencies.sort names).2 =
      before.map Model.name ++ m.name :: after.map Model.name := by
    rw [← map_name_filterMap_model? fun name hname => hsub name (hsort.mem_iff.mp hname)]
    show (inOrder s names).map Model.name = _
    rw [hsplit, List.map_append, List.map_cons]
  have hmem : m ∈ s.models := by
    have hm : m ∈ inOrder s names := hsplit ▸ List.mem_append_right _ List.mem_cons_self
    obtain ⟨name, -, hname⟩ := List.mem_filterMap.mp hm
    exact (Schema.mem_of_model? hname).1
  have hdepends : s.dependencies.DependsOn m.name target := Schema.dependsOn_iff.mpr
    ⟨hne, hsub target htarget, m, hmem, rfl, column,
      Model.foreignKey_mem_elements_iff.mp ⟨key, cascades, hkey⟩⟩
  obtain ⟨n, hn, rfl⟩ := List.mem_map.mp
    (Dependencies.mem_of_sort_eq hacyclic horder hdepends htarget)
  exact ⟨n.elements d, List.mem_map_of_mem hn⟩

end

/-! ### Dropped tables -/

/-- **A table is dropped before those it refers to.** -/
theorem dropTable_mem_post {desired previous : Schema} (hacyclic : previous.dependencies.Acyclic)
    {pre post : List Statement} {table target : String}
    (h : (dropOrder desired previous).map Statement.dropTable = pre ++ .dropTable table :: post)
    (hdepends : previous.dependencies.DependsOn table target)
    (htarget : target ∈ removed desired previous) : .dropTable target ∈ post := by
  obtain ⟨before, rest, hsplit, rfl, hrest⟩ := List.map_eq_append_iff.mp h
  obtain ⟨name, after, rfl, hname, rfl⟩ := List.map_eq_cons_iff.mp hrest
  cases hname
  have hsort : (previous.dependencies.sort (removed desired previous)).1 ++
      (previous.dependencies.sort (removed desired previous)).2 =
        after.reverse ++ table :: before.reverse := by
    rw [← List.reverse_inj]
    show dropOrder desired previous = _
    rw [hsplit]
    simp
  have hmem := Dependencies.mem_of_sort_eq hacyclic hsort hdepends htarget
  exact List.mem_map_of_mem (List.mem_reverse.mp hmem)

/-! ### Plans -/

section

variable {d : Dialect} {desired : Schema}

/-- **A fresh script is ordered**. -/
theorem isOrdered_fresh (hd : desired.modelNames.Nodup) (hacyclic : desired.dependencies.Acyclic) :
    IsOrdered d desired none ((inOrder desired desired.modelNames).map (·.creation d))
      (desired.joinTables.map (linkCreation d desired)) [] [] := by
  have once : ∀ m ∈ desired.models,
      ((inOrder desired desired.modelNames).map (·.creation d)).countP
        (Statement.creates m.name) = 1 := fun m hm => by
    rw [countP_creates, (map_name_inOrder_perm fun _ h => h).count_eq]
    exact List.count_eq_one_of_mem hd (List.mem_map_of_mem hm)
  exact {
    created := by
      refine ((inOrder_perm hd hd fun _ h => h).trans
        (.of_eq (List.filter_congr fun m hm => ?_))).map _
      simp [deployedNames, Schema.modelNames, List.mem_map_of_mem (f := Model.name) hm]
    createdOnce := fun m hm _ => once m hm
    createdOnceInAll := fun m hm _ hapart =>
      (countP_creates_parts _ hapart (by simp) []).trans (once m hm)
    joined := rfl
    altered := by simp
    dropped := .nil
    droppedOnce := by simp [deployedNames]
    references := fun _ _ _ _ h _ _ _ _ hkey hne htarget =>
      .inr (createTable_mem_pre hacyclic (fun _ h => h) h hkey hne htarget)
    referencesDropped := by simp }

/-- **A plan between schemas is ordered**. -/
theorem isOrdered_diff {previous : Schema} (hd : desired.modelNames.Nodup)
    (hp : previous.modelNames.Nodup) (hacyclic : desired.dependencies.Acyclic)
    (hacyclic' : previous.dependencies.Acyclic) :
    IsOrdered d desired (some previous)
      ((inOrder desired (added desired previous)).map (·.creation d)) []
      (desired.models.flatMap (kept d previous))
      ((dropOrder desired previous).map .dropTable) := by
  have hadded : (added desired previous).Nodup := hd.filter _
  have hsub : ∀ name ∈ added desired previous, name ∈ desired.modelNames :=
    fun name h => (mem_added_iff.mp h).1
  have hdropped : (dropOrder desired previous).Nodup :=
    (dropOrder_perm desired previous).nodup_iff.mpr (hp.filter _)
  have hmem : ∀ name, Statement.dropTable name ∈ (dropOrder desired previous).map .dropTable ↔
      name ∈ previous.modelNames ∧ name ∉ desired.modelNames := fun name => by
    rw [← mem_dropOrder_iff, List.mem_map]
    simp
  have once : ∀ m ∈ desired.models, m.name ∉ previous.modelNames →
      ((inOrder desired (added desired previous)).map (·.creation d)).countP
        (Statement.creates m.name) = 1 := fun m hm hnew => by
    rw [countP_creates, (map_name_inOrder_perm hsub).count_eq]
    exact List.count_eq_one_of_mem hadded (mem_added_iff.mpr ⟨List.mem_map_of_mem hm, hnew⟩)
  have altered : ∀ st ∈ desired.models.flatMap (kept d previous), st.isAlteration :=
    fun st hst => by
      obtain ⟨m, -, hst⟩ := List.mem_flatMap.mp hst
      exact isAlteration_of_mem_kept st hst
  exact {
    created := by
      refine ((inOrder_perm hd hadded hsub).trans (.of_eq (List.filter_congr fun m hm => ?_))).map _
      simp [deployedNames, mem_added_iff, List.mem_map_of_mem (f := Model.name) hm,
        Schema.modelNames]
    createdOnce := once
    createdOnceInAll := fun m hm hnew _ => by
      have hparts := @countP_creates_parts d desired m.name
        ((inOrder desired (added desired previous)).map (·.creation d)) [] (by simp) _ altered
        (dropOrder desired previous)
      exact hparts.trans (once m hm hnew)
    joined := rfl
    altered
    dropped := by
      refine ((dropOrder_perm desired previous).trans (.of_eq ?_)).map _
      simp [removed, deployedNames]
    droppedOnce := fun name hname hgone => by
      refine List.count_eq_one_of_mem (hdropped.map fun _ _ h => by cases h; rfl) ?_
      exact (hmem name).mpr ⟨hname, hgone⟩
    references := fun pre post table elements h column target key cascades hkey hne htarget => by
      by_cases hold : target ∈ previous.modelNames
      · exact .inl ⟨hold, fun h => ((hmem target).mp h).2 htarget⟩
      · exact .inr (createTable_mem_pre hacyclic hsub h hkey hne
          (mem_added_iff.mpr ⟨htarget, hold⟩))
    referencesDropped := fun pre post table h target htarget => by
      rintro ⟨p, hp, hdepends⟩
      cases hp
      refine dropTable_mem_post hacyclic' h hdepends ?_
      exact (dropOrder_perm desired previous).mem_iff.mp
        (mem_dropOrder_iff.mpr ((hmem target).mp htarget)) }

end

/-- **Every plan is in order.**  Where no table depends on itself through others, a plan creates
each new table once, after those that it refers to and that are not there; then, if nothing is
deployed, the join tables, one for any two models with a many-to-many relation between them; then it
alters the kept tables; and then it drops each table that is gone once, before those that it refers
to. -/
theorem plan_isOrdered {d : Dialect} {desired : Schema} {previous : Option Schema}
    {stmts : List Statement} (hd : desired.modelNames.Nodup)
    (hp : ∀ p ∈ previous, p.modelNames.Nodup) (hacyclic : desired.dependencies.Acyclic)
    (hacyclic' : ∀ p ∈ previous, p.dependencies.Acyclic)
    (hplan : (plan d desired previous).outcome = .ok stmts) :
    (∃ creations joins alterations drops, stmts = creations ++ joins ++ alterations ++ drops ∧
      IsOrdered d desired previous creations joins alterations drops) ∧
    (∀ m ∈ desired.models, ∀ f ∈ m.fields, f.IsManyToMany →
      desired.joinTables.countP (·.joins m.name f.typeName) = 1) ∧
    ∀ j ∈ desired.joinTables, ∃ m ∈ desired.models, ∃ f ∈ m.fields, f.IsManyToMany ∧
      j.joins m.name f.typeName := by
  refine ⟨?_, fun m hm f hf => Schema.countP_joins hm hf, fun j => Schema.exists_of_mem_joinTables⟩
  cases previous with
  | none =>
      obtain ⟨-, rfl⟩ := createAll_ok_iff.mp hplan
      refine ⟨_, _, [], [], ?_, isOrdered_fresh hd hacyclic⟩
      rw [List.append_nil, List.append_nil]
  | some previous =>
      obtain ⟨-, rfl⟩ := diff_ok_iff.mp hplan
      refine ⟨_, [], _, _, ?_,
        isOrdered_diff hd (hp previous rfl) hacyclic (hacyclic' previous rfl)⟩
      rw [migration, List.append_nil]

/-- A model of things that belong to others. -/
def belonging (name : String) (owners : List String) : Model :=
  { name
    fields :=
      { name := "id", typeName := "int", isPrimaryKey := true } ::
        owners.flatMap fun owner =>
          [{ name := owner ++ "_id", typeName := "int" },
           { name := owner, typeName := owner
             relation := some ⟨.manyToOne, some (owner ++ "_id")⟩ }] }

/-- Comments, which answer one another, on posts. -/
def blog : Schema :=
  ⟨[belonging "comment" ["comment", "post", "user"], belonging "post" ["user"],
    belonging "user" []]⟩

/-- Photos in albums. -/
def albums : Schema :=
  ⟨[belonging "user" [], belonging "album" ["user"], belonging "photo" ["album"]]⟩

/-- Where albums become a blog, posts are created before their comments and photos are dropped
before their albums. -/
theorem blog_plan :
    ∃ stmts, stmts = [(belonging "post" ["user"]).creation .postgres,
        (belonging "comment" ["comment", "post", "user"]).creation .postgres,
        .dropTable "photo", .dropTable "album"] ∧
      (plan .postgres blog (some albums)).outcome = .ok stmts ∧
      ∃ creations joins alterations drops, stmts = creations ++ joins ++ alterations ++ drops ∧
        IsOrdered .postgres blog (some albums) creations joins alterations drops := by
  have hblog : blog.dependencies.Acyclic :=
    Schema.acyclic_of_rank (fun t => if t = "comment" then 2 else if t = "post" then 1 else 0)
      (by decide)
  have halbums : albums.dependencies.Acyclic :=
    Schema.acyclic_of_rank (fun t => if t = "photo" then 2 else if t = "album" then 1 else 0)
      (by decide)
  refine ⟨_, rfl, ?hplan, (plan_isOrdered (by decide) (by rintro _ ⟨⟩; decide) hblog
    (by rintro _ ⟨⟩; exact halbums) ?hplan).1⟩
  with_unfolding_all rfl

end Plan

end Schemata
