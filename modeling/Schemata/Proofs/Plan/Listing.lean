import Schemata.Proofs.Plan.Cycles
import Schemata.Proofs.Plan.Drops
import Schemata.Proofs.Plan.References

/-!
# Proofs — the order in which a deployed schema is listed

A database has no order for its tables and columns, so a plan must not depend on the one in which
they are listed.  Two schemas with the same models, their fields and they themselves listed in
another order (`Schema.Relisted`), are planned against side by side.

* `Schema.Relisted.model?`, `Model.Relisted.columnNamed_eq` — what is found under a name is the
  same.
* `Plan.alterTable_relisted`, `Plan.making_relisted` — so every step up to the dropped tables makes
  the same entries and fails alike, or ends in the same statements but for the order of the columns
  that are dropped.
* `Plan.plan_relisted` — the plans fail alike, or they have the same statements, in the same order
  but for what is dropped, and warn of the same join tables.
-/

namespace Schemata

/-! ### Listings -/

/-- The same fields under the same name, in another order. -/
structure Model.Relisted (m n : Model) : Prop where
  name : m.name = n.name
  fields : m.fields.Perm n.fields

/-- The same models, in another order and each with its fields in another order. -/
def Schema.Relisted (s t : Schema) : Prop :=
  ∃ models, s.models.Perm models ∧ List.Forall₂ Model.Relisted models t.models

namespace Model.Relisted

variable {m n : Model}

theorem fields_nodup (h : m.Relisted n) (hm : (m.fields.map Field.name).Nodup) :
    (n.fields.map Field.name).Nodup :=
  (h.fields.map Field.name).nodup_iff.mp hm

theorem columns_perm (h : m.Relisted n) : m.columns.Perm n.columns := h.fields.filter _

/-- The columns are found under the same names. -/
theorem columnNamed_eq (h : m.Relisted n) (hm : (m.fields.map Field.name).Nodup) :
    Plan.columnNamed m = Plan.columnNamed n := by
  funext name
  ext f
  rw [Plan.columnNamed_eq_some_iff hm, Plan.columnNamed_eq_some_iff (h.fields_nodup hm),
    h.columns_perm.mem_iff]

end Model.Relisted

namespace Schema.Relisted

variable {s t : Schema}

/-- Another order of the models is one of their names. -/
theorem modelNames_perm (h : s.Relisted t) : s.modelNames.Perm t.modelNames := by
  obtain ⟨models, hperm, hrelisted⟩ := h
  refine (hperm.map Model.name).trans (.of_eq ?_)
  exact map_eq_of_forall₂ (hrelisted.imp fun _ _ h => h.name)

theorem exists_left (h : s.Relisted t) {m : Model} (hm : m ∈ s.models) :
    ∃ n ∈ t.models, m.Relisted n := by
  obtain ⟨models, hperm, hrelisted⟩ := h
  exact exists_of_forall₂ hrelisted (hperm.mem_iff.mp hm)

/-- A model in the other order was there before. -/
theorem exists_right (h : s.Relisted t) {n : Model} (hn : n ∈ t.models) :
    ∃ m ∈ s.models, m.Relisted n := by
  obtain ⟨models, hperm, hrelisted⟩ := h
  obtain ⟨m, hm, hmn⟩ := exists_of_forall₂ hrelisted.flip hn
  exact ⟨m, hperm.mem_iff.mpr hm, hmn⟩

/-- What is said of the names of models and of their fields does not depend on the listing. -/
theorem exists_iff (h : s.Relisted t) {P : String → Field → Prop} :
    (∃ m ∈ s.models, ∃ f ∈ m.fields, P m.name f) ↔
      ∃ m ∈ t.models, ∃ f ∈ m.fields, P m.name f := by
  constructor
  · rintro ⟨m, hm, f, hf, hP⟩
    obtain ⟨n, hn, hmn⟩ := h.exists_left hm
    exact ⟨n, hn, f, hmn.fields.mem_iff.mp hf, hmn.name ▸ hP⟩
  · rintro ⟨n, hn, f, hf, hP⟩
    obtain ⟨m, hm, hmn⟩ := h.exists_right hn
    exact ⟨m, hm, f, hmn.fields.mem_iff.mpr hf, hmn.name ▸ hP⟩

/-- The models are found under the same names. -/
theorem model?_cases (h : s.Relisted t) (hs : s.modelNames.Nodup) (name : String) :
    (s.model? name = none ∧ t.model? name = none) ∨
      ∃ m ∈ s.models, ∃ n, s.model? name = some m ∧ t.model? name = some n ∧ m.Relisted n := by
  have ht : t.modelNames.Nodup := h.modelNames_perm.nodup_iff.mp hs
  cases hname : s.model? name with
  | none =>
      rw [model?_eq_none_iff, h.modelNames_perm.mem_iff] at hname
      exact .inl ⟨rfl, model?_eq_none_iff.mpr hname⟩
  | some m =>
      obtain ⟨hm, rfl⟩ := mem_of_model? hname
      obtain ⟨n, hn, hmn⟩ := h.exists_left hm
      exact .inr ⟨m, hm, n, rfl, (model?_eq_some_iff ht).mpr ⟨hn, hmn.name.symm⟩, hmn⟩

/-- Another order leaves the pairs of many-to-many relations. -/
theorem pairs_contains (h : s.Relisted t) (p : String × String) :
    s.pairs.contains p = t.pairs.contains p := by
  rw [Bool.eq_iff_iff, List.contains_iff_mem, List.contains_iff_mem, mem_pairs_iff, mem_pairs_iff]
  exact h.exists_iff (P := fun name f => f.IsManyToMany ∧ p = orderedPair name f.typeName)

theorem modelNames_contains (h : s.Relisted t) (name : String) :
    s.modelNames.contains name = t.modelNames.contains name := by
  rw [Bool.eq_iff_iff, List.contains_iff_mem, List.contains_iff_mem, h.modelNames_perm.mem_iff]

/-- Another order leaves the dependencies. -/
theorem dependsOn_iff (h : s.Relisted t) {table target : String} :
    s.dependencies.DependsOn table target ↔ t.dependencies.DependsOn table target := by
  have hkeys : ∀ u : Schema, (∃ m ∈ u.models, m.name = table ∧ ∃ key, m.HoldsKey key target) ↔
      ∃ m ∈ u.models, ∃ f ∈ m.fields, m.name = table ∧
        ∃ key, f.foreignKeyTarget? = some target ∧ f.relation.bind Relation.key? = some key :=
    fun u => by
      unfold Model.HoldsKey
      constructor
      · rintro ⟨m, hm, hname, key, f, hf, hkey⟩
        exact ⟨m, hm, f, hf, hname, key, hkey⟩
      · rintro ⟨m, hm, f, hf, hname, key, hkey⟩
        exact ⟨m, hm, hname, key, f, hf, hkey⟩
  rw [Schema.dependsOn_iff, Schema.dependsOn_iff, h.modelNames_perm.mem_iff, hkeys, hkeys,
    h.exists_iff (P := fun name f => name = table ∧
      ∃ key, f.foreignKeyTarget? = some target ∧ f.relation.bind Relation.key? = some key)]

end Schema.Relisted

/-- Among the same tables with the same dependencies, the same ones are stuck. -/
theorem Dependencies.stuck_perm {deps deps' : Dependencies} {tables tables' : List String}
    (hdeps : ∀ t u, deps.DependsOn t u ↔ deps'.DependsOn t u) (htables : tables.Perm tables')
    (hnodup : tables.Nodup) : (deps.sort tables).2.Perm (deps'.sort tables').2 := by
  have hneeds : deps.Needs tables = deps'.Needs tables' := by
    funext t u
    unfold Needs
    rw [htables.mem_iff, htables.mem_iff, hdeps]
  refine (List.perm_ext_iff_of_nodup (hnodup.sublist (stuck_sublist deps tables))
    ((htables.nodup_iff.mp hnodup).sublist (stuck_sublist deps' tables'))).mpr fun t => ?_
  rw [mem_stuck_iff, mem_stuck_iff, htables.mem_iff]
  unfold Waits
  rw [hneeds]

/-! ### Statements but for what they drop -/

/-- A statement that drops a table or a column. -/
def Statement.isDrop : Statement → Bool
  | .dropTable _ => true
  | .dropColumn _ _ => true
  | _ => false

/-- The same statements, as often, and in the same order but for those that drop something. -/
structure Statement.SameButDrops (stmts stmts' : List Statement) : Prop where
  perm : stmts.Perm stmts'
  others : stmts.filter (!·.isDrop) = stmts'.filter (!·.isDrop)

namespace Statement.SameButDrops

variable {stmts stmts' more more' : List Statement}

theorem refl (stmts : List Statement) : SameButDrops stmts stmts := ⟨.refl _, rfl⟩

/-- Scripts that are the same but for drops can be put one after the other. -/
theorem append (h : SameButDrops stmts stmts') (h' : SameButDrops more more') :
    SameButDrops (stmts ++ more) (stmts' ++ more') where
  perm := h.perm.append h'.perm
  others := by rw [List.filter_append, List.filter_append, h.others, h'.others]

theorem flatten {parts parts' : List (List Statement)}
    (h : List.Forall₂ SameButDrops parts parts') : SameButDrops parts.flatten parts'.flatten := by
  induction h with
  | nil => exact refl []
  | cons h _ ih => exact h.append ih

/-- Statements that all drop something may come in any order. -/
theorem map_of_perm {α : Type} {drop : α → Statement} (hdrop : ∀ a, (drop a).isDrop = true)
    {xs ys : List α} (h : xs.Perm ys) : SameButDrops (xs.map drop) (ys.map drop) where
  perm := h.map drop
  others := by
    have hnone : ∀ zs : List α, (zs.map drop).filter (!·.isDrop) = [] := fun zs => by
      simp [List.filter_eq_nil_iff, hdrop]
    rw [hnone, hnone]

end Statement.SameButDrops

namespace Plan

open Statement (SameButDrops)

variable {d : Dialect} {desired previous previous' : Schema}

/-! ### Plans side by side -/

/-- **To alter a table** takes the same statements but for drops, in whatever order the table was
listed. -/
theorem alterTable_relisted {before before' after : Model} (h : before.Relisted before')
    (hbefore : (before.fields.map Field.name).Nodup) :
    (alterTable d before after).Alike SameButDrops (alterTable d before' after) := by
  have hreach : reachColumn d before after = reachColumn d before' after := by
    funext f
    unfold reachColumn
    rw [h.columnNamed_eq hbefore]
  unfold alterTable
  rw [hreach]
  refine (Journal.Alike.refl (fun _ => rfl) _).bind fun reached _ hreached => ?_
  subst hreached
  refine .ended _ ((SameButDrops.refl _).append (.map_of_perm (fun _ => rfl) ?_))
  exact h.columns_perm.filter _

/-- What is made before anything else is dropped: the new tables, and the changes of the kept
ones. -/
def making (d : Dialect) (desired previous : Schema) : Planning (List Statement) := do
  let created ← createTables d desired (added desired previous)
  let altered ← desired.models.mapM fun m =>
    match previous.model? m.name with
    | some before => alterTable d before m
    | none => pure []
  pure (created ++ altered.flatten)

/-- What is dropped in the end, after what was made. -/
def dropping (desired previous : Schema) (made : List Statement) : Planning (List Statement) := do
  let order ← previous.dependencies.sorted (removed desired previous)
  Journal.notes (missingJoinTables desired previous)
  pure (made ++ order.reverse.map .dropTable)

/-- A plan between schemas is what it makes and what it drops. -/
theorem diff_eq (d : Dialect) (desired previous : Schema) :
    diff d desired previous = making d desired previous >>= dropping desired previous := by
  symm
  refine (bind_assoc _ _ _).trans (congrArg _ (funext fun created => ?_))
  refine (bind_assoc _ _ _).trans (congrArg _ (funext fun altered => ?_))
  rfl

theorem added_relisted (h : previous.Relisted previous') :
    added desired previous = added desired previous' :=
  List.filter_congr fun name _ => by rw [h.modelNames_contains]

theorem removed_relisted (h : previous.Relisted previous') :
    (removed desired previous).Perm (removed desired previous') := h.modelNames_perm.filter _

/-- The join tables that are told of as missing do not depend on the order of the old models. -/
theorem missingJoinTables_relisted (h : previous.Relisted previous') :
    missingJoinTables desired previous = missingJoinTables desired previous' := by
  unfold missingJoinTables
  simp only [h.pairs_contains, h.modelNames_contains]

/-- What is dropped in the end never fails, and is told of after what was made. -/
theorem dropping_eq (desired previous : Schema) (made : List Statement) :
    dropping desired previous made =
      ⟨(previous.dependencies.sorted (ε := PlanError) (removed desired previous)).entries ++
          missingJoinTables desired previous,
        .ok (made ++ (dropOrder desired previous).map .dropTable)⟩ := by
  refine Journal.ext ?_ rfl
  unfold dropping
  rw [Journal.entries_bind, Dependencies.sorted_outcome]
  show _ ++ (missingJoinTables desired previous ++ []) = _
  rw [List.append_nil]

/-- What is made is the same but for drops, in whatever order the old models were listed. -/
theorem making_relisted (hp : previous.Distinct) (h : previous.Relisted previous') :
    (making d desired previous).Alike SameButDrops (making d desired previous') := by
  unfold making
  rw [added_relisted h]
  refine (Journal.Alike.refl (fun _ => rfl) _).bind fun created _ hcreated => ?_
  subst hcreated
  refine (Journal.Alike.mapM fun m _ => ?_).bind fun altered altered' haltered =>
    .ended _ ((SameButDrops.refl _).append (.flatten haltered))
  rcases h.model?_cases hp.models m.name with
    ⟨hnone, hnone'⟩ | ⟨before, hmem, before', hbefore, hbefore', hrelisted⟩
  · rw [hnone, hnone']
    exact .ended _ (.refl [])
  · rw [hbefore, hbefore']
    exact alterTable_relisted hrelisted (hp.fields before hmem)

/-- **The listing does not matter.**  Of two listings of a deployed schema, either both plans fail,
with the same error, or both are made: of the same statements, as often, and in the same order but
for the tables and columns that are dropped.  The journals have the same entries up to the drops and
the same warnings of missing join tables behind them; between these, both warn of a cycle among the
dropped tables or neither does, and of the same tables. -/
theorem plan_relisted {style : Style} {desired previous previous' : Schema}
    (hp : previous.Distinct) (h : previous.Relisted previous') :
    (∀ e, (planScript style desired (some previous)).outcome = .error e ↔
      (planScript style desired (some previous')).outcome = .error e) ∧
    ∀ stmts, (plan style.dialect desired (some previous)).outcome = .ok stmts →
      ∃ stmts', (plan style.dialect desired (some previous')).outcome = .ok stmts' ∧
        SameButDrops stmts stmts' ∧
        (∃ script script', (planScript style desired (some previous)).outcome = .ok script ∧
          (planScript style desired (some previous')).outcome = .ok script' ∧
          script.statements.Perm script'.statements) ∧
        (∃ told, (plan style.dialect desired (some previous)).entries = told ++
            ((previous.dependencies.sorted (ε := PlanError) (removed desired previous)).entries ++
              missingJoinTables desired previous) ∧
          (plan style.dialect desired (some previous')).entries = told ++
            ((previous'.dependencies.sorted (ε := PlanError) (removed desired previous')).entries ++
              missingJoinTables desired previous)) ∧
        (previous.dependencies.sort (removed desired previous)).2.Perm
          (previous'.dependencies.sort (removed desired previous')).2 := by
  have hmaking := @making_relisted style.dialect desired _ _ hp h
  have hstuck := Dependencies.stuck_perm (fun _ _ => h.dependsOn_iff) (removed_relisted h)
    (hp.models.filter fun name => !desired.modelNames.contains name)
  have hdropped : (dropOrder desired previous).Perm (dropOrder desired previous') :=
    (dropOrder_perm desired previous).trans
      ((removed_relisted h).trans (dropOrder_perm desired previous').symm)
  have hplan : ∀ p, plan style.dialect desired (some p) =
      making style.dialect desired p >>= dropping desired p := diff_eq style.dialect desired
  unfold planScript
  simp only [Journal.map_error_iff, Journal.map_ok_iff, hplan, dropping_eq, Journal.outcome_bind,
    Journal.entries_bind]
  generalize making style.dialect desired previous = x at hmaking ⊢
  generalize making style.dialect desired previous' = y at hmaking ⊢
  cases hmaking with
  | failed entries e => exact ⟨fun _ => .rfl, nofun⟩
  | @ended entries made made' same =>
      refine ⟨fun _ => ⟨nofun, nofun⟩, fun stmts hstmts => ?_⟩
      cases hstmts
      have hsame := same.append
        (@SameButDrops.map_of_perm _ Statement.dropTable (fun _ => rfl) _ _ hdropped)
      refine ⟨_, rfl, hsame, ⟨_, _, ⟨_, rfl, rfl⟩, ⟨_, rfl, rfl⟩, hsame.perm.map _⟩,
        ⟨entries, rfl, ?_⟩, hstuck⟩
      rw [missingJoinTables_relisted h]

/-- A library, each of its tables with these columns. -/
def library (tables : List (String × List String)) : Schema :=
  ⟨tables.map fun (name, columns) =>
    { name, fields := columns.map fun column => { name := column, typeName := "int" } }⟩

/-- What gives readers a card and drops these columns of theirs and these tables. -/
def libraryChanges (columns tables : List String) : List Statement :=
  .addColumn "reader" { name := "card", type := "INT" } ::
    (columns.map (.dropColumn "reader") ++ tables.map .dropTable)

/-- A library of readers, loans and holds. -/
def oldLibrary : Schema := library [("reader", ["age", "town"]), ("loan", ["id"]), ("hold", ["id"])]

/-- The same library in another listing. -/
def listedLibrary : Schema :=
  library [("hold", ["id"]), ("loan", ["id"]), ("reader", ["town", "age"])]

/-- Where a library keeps nothing but the cards of its readers, two listings of it are left by the
same steps, those that drop something in another order. -/
theorem library_relisted : oldLibrary.Distinct ∧ oldLibrary.Relisted listedLibrary ∧
    (plan .mysql (library [("reader", ["card"])]) (some oldLibrary)).outcome =
      .ok (libraryChanges ["age", "town"] ["hold", "loan"]) ∧
    (plan .mysql (library [("reader", ["card"])]) (some listedLibrary)).outcome =
      .ok (libraryChanges ["town", "age"] ["loan", "hold"]) ∧
    SameButDrops (libraryChanges ["age", "town"] ["hold", "loan"])
      (libraryChanges ["town", "age"] ["loan", "hold"]) := by
  have hdistinct : oldLibrary.Distinct := ⟨by decide, by decide⟩
  have hrelisted : oldLibrary.Relisted listedLibrary :=
    ⟨_, (List.reverse_perm _).symm, .cons ⟨rfl, .refl _⟩ (.cons ⟨rfl, .refl _⟩
      (.cons ⟨rfl, .swap ..⟩ .nil))⟩
  have hplan : (plan .mysql (library [("reader", ["card"])]) (some oldLibrary)).outcome =
      .ok (libraryChanges ["age", "town"] ["hold", "loan"]) := by with_unfolding_all rfl
  have hplan' : (plan .mysql (library [("reader", ["card"])]) (some listedLibrary)).outcome =
      .ok (libraryChanges ["town", "age"] ["loan", "hold"]) := by with_unfolding_all rfl
  obtain ⟨-, hmade⟩ := @plan_relisted ⟨.mysql, false⟩ (library [("reader", ["card"])]) _ _
    hdistinct hrelisted
  obtain ⟨stmts', hstmts', hsame, -⟩ := hmade _ hplan
  obtain rfl := Except.ok.inj (hplan'.symm.trans hstmts')
  exact ⟨hdistinct, hrelisted, hplan, hplan', hsame⟩

end Plan

end Schemata
