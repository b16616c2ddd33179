import Schemata.Proofs.Catalog.Joins

/-!
# Proofs — catalogs — folding one table after the other

The schema of a snapshot is told as a whole: which tables are folded, and what becomes of the models
of the others.  It can be made step by step as well, in a map from names to models: for one table
after the other that joins two others, the two models are looked up and get a field for it, and its
own model is taken out (`Snapshot.fold?`).  A step fails where a model that it looks for is missing.

No step fails, as the two models belong to tables that join none and so are never taken out
(`Foldable`).

* `Foldable.fold?_eq`, `Foldable.foldlM_eq` — what a step does, and what all of them do.
* `Snapshot.foldAll?_eq` — the steps end with the schema.
-/

namespace Schemata

/-! ### The steps -/

namespace Snapshot

/-- The models with a field for a link at the end of the named model, if it is there. -/
def addLink? (models : List Model) (name target table : String) : Option (List Model) :=
  (models.find? fun m => m.name == name).map fun m =>
    putNamed Model.name { m with fields := m.fields ++ [m.linkField target table] } models

/-- The models without the named one, if it is there. -/
def remove? (models : List Model) (name : String) : Option (List Model) :=
  if (models.map Model.name).contains name then some (models.filter fun m => m.name != name)
  else none

/-- The models after a link is folded: the linked ones get a field each, or one if it is the same
one twice, and the model of the link itself is taken out. -/
def fold? (models : List Model) (l : Link) : Option (List Model) :=
  (addLink? models l.left l.right l.table).bind fun models =>
    (if l.right = l.left then some models else addLink? models l.right l.left l.table).bind
      fun models => remove? models l.table

/-- The models after all links are folded, but for those to links. -/
def foldAll? (s : Snapshot) (models : List Model) : Option (List Model) :=
  s.links.foldlM (fun models l =>
    if (s.links.map Link.table).contains l.left || (s.links.map Link.table).contains l.right then
      some models
    else fold? models l) models

end Snapshot

namespace Model

/-- The model with the field for a link to the target, if it is the named one. -/
def addLink (name target table : String) (m : Model) : Model :=
  if m.name = name then { m with fields := m.fields ++ [m.linkField target table] } else m

theorem addLink_name (name target table : String) (m : Model) :
    (m.addLink name target table).name = m.name := by
  unfold addLink
  split <;> rfl

theorem addLink_of_ne {name target table : String} {m : Model} (h : m.name ≠ name) :
    m.addLink name target table = m :=
  if_neg h

theorem map_name_map {f : Model → Model} (hf : ∀ m, (f m).name = m.name) (models : List Model) :
    (models.map f).map Model.name = models.map Model.name := by
  rw [List.map_map]
  exact List.map_congr_left fun m _ => hf m

/-- The fields for a link are added on its left and then on its right, but once if it leads to the
same model twice. -/
theorem withLink_eq_addLink (m : Model) (l : Link) :
    m.withLink l = if l.right = l.left then m.addLink l.left l.right l.table
      else (m.addLink l.left l.right l.table).addLink l.right l.left l.table := by
  unfold withLink addLink
  split_ifs <;> simp_all

end Model

namespace Snapshot

/-- Without a model of the name, all models stay as they are. -/
theorem map_addLink_of_not_mem {models : List Model} {name target table : String}
    (h : name ∉ models.map Model.name) : models.map (·.addLink name target table) = models := by
  conv_rhs => rw [← List.map_id' models]
  exact List.map_congr_left fun m hm =>
    Model.addLink_of_ne fun he => h (he ▸ List.mem_map_of_mem hm)

/-- To add a link to a model that is there is to add it to the models of its name. -/
theorem addLink?_eq {models : List Model} {name : String} (hnodup : (models.map Model.name).Nodup)
    (hname : name ∈ models.map Model.name) (target table : String) :
    addLink? models name target table = some (models.map (·.addLink name target table)) := by
  induction models with
  | nil => cases hname
  | cons x models ih =>
      obtain ⟨hx, hnodup⟩ := List.nodup_cons.mp hnodup
      unfold addLink?
      by_cases hfirst : x.name = name
      · subst hfirst
        rw [List.map_cons, map_addLink_of_not_mem hx]
        simp [putNamed, Model.addLink]
      · have hmem := (List.mem_cons.mp hname).resolve_left (Ne.symm hfirst)
        have hrest := ih hnodup hmem
        unfold addLink? at hrest
        obtain ⟨m, hm, hput⟩ := Option.map_eq_some_iff.mp hrest
        have hmname : m.name = name := by simpa using List.find?_some hm
        rw [List.find?_cons_of_neg (by simpa using hfirst), hm, List.map_cons,
          Model.addLink_of_ne hfirst, ← hput, Option.map_some, putNamed,
          if_neg (hmname ▸ hfirst)]

theorem remove?_eq {models : List Model} {name : String} (h : name ∈ models.map Model.name) :
    remove? models name = some (models.filter fun m => m.name != name) :=
  if_pos (List.contains_iff_mem.mpr h)

end Snapshot

/-! ### No step fails -/

/-- Links that can be folded one after the other: models of different names are there for them and
for what they link, and no link is one of those that are linked. -/
structure Foldable (models : List Model) (ls : List Link) : Prop where
  names : (models.map Model.name).Nodup
  tables : (ls.map Link.table).Nodup
  there : ∀ l ∈ ls, l.table ∈ models.map Model.name ∧ l.left ∈ models.map Model.name ∧
    l.right ∈ models.map Model.name
  apart : ∀ l ∈ ls, l.left ∉ ls.map Link.table ∧ l.right ∉ ls.map Link.table

namespace Foldable

variable {models : List Model} {l : Link} {ls : List Link}

/-- A link can be folded, whatever is folded after it. -/
theorem fold?_eq (h : Foldable models (l :: ls)) :
    Snapshot.fold? models l =
      some ((models.filter fun m => m.name != l.table).map (·.withLink l)) := by
  obtain ⟨htable, hleft, hright⟩ := h.there l List.mem_cons_self
  have hadded := Model.map_name_map (Model.addLink_name l.left l.right l.table) models
  have hlinked : (if l.right = l.left then some (models.map (·.addLink l.left l.right l.table))
      else Snapshot.addLink? (models.map (·.addLink l.left l.right l.table)) l.right l.left l.table)
      = some (models.map (·.withLink l)) := by
    split
    next heq => exact congrArg some (List.map_congr_left fun m _ => by
      rw [m.withLink_eq_addLink, if_pos heq])
    next hne =>
      rw [Snapshot.addLink?_eq (hadded ▸ h.names) (hadded ▸ hright), List.map_map]
      exact congrArg some (List.map_congr_left fun m _ => by
        rw [m.withLink_eq_addLink, if_neg hne, Function.comp_apply])
  have hnames := Model.map_name_map (fun m => Model.withLink_name m l) models
  unfold Snapshot.fold?
  rw [Snapshot.addLink?_eq h.names hleft, Option.bind_some, hlinked, Option.bind_some,
    Snapshot.remove?_eq (hnames ▸ htable), List.filter_map]
  simp only [Function.comp_def, Model.withLink_name]

/-- And the others can be folded afterwards. -/
theorem rest (h : Foldable models (l :: ls)) :
    Foldable ((models.filter fun m => m.name != l.table).map (·.withLink l)) ls := by
  have hsub : (models.filter fun m => m.name != l.table).Sublist models := List.filter_sublist
  obtain ⟨hfirst, htables⟩ := List.nodup_cons.mp h.tables
  have hkept : ∀ name, name ∈ models.map Model.name → name ≠ l.table →
      name ∈ (models.filter fun m => m.name != l.table).map Model.name := fun name hname hne => by
    obtain ⟨m, hm, rfl⟩ := List.mem_map.mp hname
    exact List.mem_map_of_mem (List.mem_filter.mpr ⟨hm, by simpa using hne⟩)
  have hnames := Model.map_name_map (fun m => Model.withLink_name m l)
    (models.filter fun m => m.name != l.table)
  refine ⟨hnames ▸ h.names.sublist (hsub.map _), htables, fun k hk => ?_, fun k hk => ?_⟩
  · obtain ⟨htable, hleft, hright⟩ := h.there k (List.mem_cons_of_mem l hk)
    obtain ⟨hl, hr⟩ := h.apart k (List.mem_cons_of_mem l hk)
    rw [hnames]
    exact ⟨hkept _ htable fun he => hfirst (he ▸ List.mem_map_of_mem hk),
      hkept _ hleft fun he => hl (he ▸ List.mem_cons_self),
      hkept _ hright fun he => hr (he ▸ List.mem_cons_self)⟩
  · obtain ⟨hl, hr⟩ := h.apart k (List.mem_cons_of_mem l hk)
    exact ⟨fun hmem => hl (List.mem_cons_of_mem _ hmem),
      fun hmem => hr (List.mem_cons_of_mem _ hmem)⟩

/-- **All of them** can be folded, and the models of the links are gone then. -/
theorem foldlM_eq (h : Foldable models ls) :
    ls.foldlM Snapshot.fold? models = some ((models.filter fun m =>
      !(ls.map Link.table).contains m.name).map fun m => ls.foldl Model.withLink m) := by
  induction ls generalizing models with
  | nil => simp
  | cons l ls ih =>
      rw [List.foldlM_cons, h.fold?_eq, Option.bind_eq_bind, Option.bind_some, ih h.rest,
        List.filter_map, List.map_map, List.filter_filter]
      refine congrArg some (congrArg₂ List.map rfl (List.filter_congr fun m _ => ?_))
      simp [Model.withLink_name, Bool.and_comm, bne, Bool.beq_eq_decide_eq]

end Foldable

/-! ### The links of a snapshot -/

namespace Snapshot

variable {s : Snapshot} {d : Dialect} {t : Table} {l : Link} {models : List Model}

/-- The link that a table is, if it is folded. -/
def foldedLink? (s : Snapshot) (t : Table) : Option Link :=
  ((t.linkedTables? s.names).map fun (left, right) => ⟨t.name, left, right⟩).filter fun l =>
    !(s.links.map Link.table).contains l.left && !(s.links.map Link.table).contains l.right

/-- A table is that of a folded link exactly if it is a link between tables that are none. -/
theorem foldedLink?_eq_some_iff : s.foldedLink? t = some l ↔
    t.name = l.table ∧ t.IsLink s.names l.left l.right ∧ ¬ s.Links l.left ∧ ¬ s.Links l.right := by
  unfold foldedLink?
  rw [Option.filter_eq_some_iff, Option.map_eq_some_iff]
  simp only [Bool.and_eq_true, Bool.not_eq_true', ← Bool.not_eq_true, List.contains_iff_mem,
    mem_linkTables_iff]
  refine ⟨?_, fun ⟨hname, hlink, hfree⟩ => ⟨⟨(l.left, l.right),
    Table.linkedTables?_eq_some_iff.mpr hlink, by rw [hname]⟩, hfree⟩⟩
  rintro ⟨⟨⟨left, right⟩, hlinked, rfl⟩, hfree⟩
  exact ⟨rfl, Table.linkedTables?_eq_some_iff.mp hlinked, hfree⟩

/-- A table is folded exactly if it is that of a folded link. -/
theorem foldsTable_iff_exists_foldedLink : s.FoldsTable t ↔ ∃ l, s.foldedLink? t = some l := by
  simp only [foldsTable_iff, foldedLink?_eq_some_iff]
  exact ⟨fun ⟨left, right, h⟩ => ⟨⟨t.name, left, right⟩, rfl, h⟩,
    fun ⟨l, _, h⟩ => ⟨l.left, l.right, h⟩⟩

theorem foldedLinks_eq : s.foldedLinks = s.filterMap s.foldedLink? :=
  List.filter_filterMap

/-- They are told in the order of their tables. -/
theorem map_table_foldedLinks : s.foldedLinks.map Link.table =
    (s.filter fun t => (s.foldedLink? t).isSome).map Table.name := by
  rw [foldedLinks_eq]
  generalize hlink : s.foldedLink? = link
  have hname : ∀ t l, link t = some l → t.name = l.table := fun t l h =>
    (foldedLink?_eq_some_iff.mp (hlink ▸ h)).1
  clear hlink
  induction s with
  | nil => rfl
  | cons t s ih =>
      cases ht : link t with
      | none => simp [ht, ih]
      | some l => simp [ht, ih, hname t l ht]

/-- The links of a snapshot that are folded can be folded one after the other. -/
theorem foldable_foldedLinks (hnames : s.names.Nodup) (h : models.map Model.name = s.names) :
    Foldable models s.foldedLinks := by
  refine ⟨h ▸ hnames, ?_, fun l hl => ?_, fun l hl => ?_⟩
  · exact map_table_foldedLinks ▸ hnames.sublist (List.filter_sublist.map _)
  · obtain ⟨t, ht, hname, hlink⟩ := mem_links_iff.mp (mem_foldedLinks_iff.mp hl).1
    exact h ▸ ⟨hname ▸ List.mem_map_of_mem ht, hlink.known⟩
  · obtain ⟨-, hleft, hright⟩ := mem_foldedLinks_iff.mp hl
    rw [mem_foldedTables_iff, mem_foldedTables_iff]
    exact ⟨fun hfolds => hleft hfolds.links, fun hfolds => hright hfolds.links⟩

/-- Links to links are passed over. -/
theorem foldAll?_eq_foldlM (s : Snapshot) (models : List Model) :
    s.foldAll? models = s.foldedLinks.foldlM fold? models := by
  unfold foldAll? foldedLinks
  rw [List.foldlM_filter]
  congr 1
  funext models l
  cases (s.links.map Link.table).contains l.left <;>
    cases (s.links.map Link.table).contains l.right <;> rfl

/-- **The steps end with the schema**, as none of them fails. -/
theorem foldAll?_eq (hnames : s.names.Nodup) {shown : Schema}
    (h : (s.schema d).outcome = .ok shown) :
    ∃ models, List.Forall₂ (fun t m => t.model d = .ok m) s models ∧
      s.foldAll? models = some shown.models := by
  obtain ⟨models, hmodels, rfl⟩ := schema_ok_iff.mp h
  refine ⟨models, Except.mapM_ok_iff.mp hmodels, ?_⟩
  rw [foldAll?_eq_foldlM, (foldable_foldedLinks hnames (map_name_models hmodels)).foldlM_eq]
  rfl

end Snapshot

end Schemata
