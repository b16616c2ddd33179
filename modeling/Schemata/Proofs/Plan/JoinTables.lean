import Schemata.Proofs.Plan.Fresh

/-!
# Proofs — join tables

What the join tables of a schema are, by its declarations (`Schema.declared`): the fields of all
models in order, each with the name of its model.

* `JoinTable.IsOf` — a join table has the two models of a relation in the order of their names, and
  the first name that a declaration of the relation gives, on either side, or else the one that is
  put together.
* `Schema.isOf_of_mem_joinTables`, `Schema.countP_joins` — every join table is one, and two models
  with a relation between them have one.
* `Schema.joinTables_addsField` — so a relation that is declared again, and without a name, adds
  none and renames none.
* `Schema.joinTables_canonical` — these together, with what a join table is created with.
-/

namespace Schemata

/-! ### Declarations -/

/-- The fields of a schema in order, each with the name of its model. -/
def Schema.declared (s : Schema) : List (String × Field) :=
  s.models.flatMap fun m => m.fields.map fun f => (m.name, f)

/-- The field declares a many-to-many relation between two models, on the one side or the other. -/
def Field.Relates (a b : String) (declaration : String × Field) : Prop :=
  declaration.2.IsManyToMany ∧
    ((declaration.1 = a ∧ declaration.2.typeName = b) ∨
      (declaration.1 = b ∧ declaration.2.typeName = a))

/-- The name that the relation of a field gives, unless it is empty. -/
def Field.givenKey? (f : Field) : Option String := f.relation.bind Relation.key?

/-- The join table of a many-to-many relation that the schema declares: its models are in the order
of their names, and it has the first name that is given by a declaration of the relation, or, if
none gives one, the name that is put together. -/
structure JoinTable.IsOf (s : Schema) (j : JoinTable) : Prop where
  ordered : j.left ≤ j.right
  declared : ∃ x ∈ s.declared, Field.Relates j.left j.right x
  named : (∃ before x after, s.declared = before ++ x :: after ∧ Field.Relates j.left j.right x ∧
      x.2.givenKey? = some j.name ∧
      ∀ y ∈ before, Field.Relates j.left j.right y → y.2.givenKey? = none) ∨
    ((∀ x ∈ s.declared, Field.Relates j.left j.right x → x.2.givenKey? = none) ∧
      j.name = "_" ++ j.left ++ "_" ++ j.right)

/-- The second schema is the first one with a field more in one of its models. -/
inductive Schema.AddsField (model : String) (f : Field) : Schema → Schema → Prop
  | intro (before after : List Model) (m : Model) (fields more : List Field)
      (name : m.name = model) :
      AddsField model f ⟨before ++ { m with fields := fields ++ more } :: after⟩
        ⟨before ++ { m with fields := fields ++ f :: more } :: after⟩

theorem orderedPair_le (a b : String) : (orderedPair a b).1 ≤ (orderedPair a b).2 := by
  unfold orderedPair
  split
  next h => exact String.not_lt.mp (String.lt_asymm h)
  next h => exact String.not_lt.mp h

/-- Two names in order are the pair of two others exactly if they are these, in some order. -/
theorem orderedPair_eq_iff {a b left right : String} (h : left ≤ right) :
    orderedPair a b = (left, right) ↔ (a = left ∧ b = right) ∨ (a = right ∧ b = left) := by
  have hpair : orderedPair left right = (left, right) := by
    rw [orderedPair, if_neg (String.not_lt.mpr h)]
  rw [← hpair, eq_comm, eq_orderedPair_iff, hpair, Prod.mk.injEq, Prod.mk.injEq]
  exact or_congr ⟨fun ⟨h, h'⟩ => ⟨h.symm, h'.symm⟩, fun ⟨h, h'⟩ => ⟨h.symm, h'.symm⟩⟩
    ⟨fun ⟨h, h'⟩ => ⟨h'.symm, h.symm⟩, fun ⟨h, h'⟩ => ⟨h'.symm, h.symm⟩⟩

/-- A field makes a pairing exactly if it is many-to-many, between the ordered models and with the
name it gives. -/
theorem Field.pairing?_eq_some_iff {model : String} {f : Field} {p : Pairing} :
    f.pairing? model = some p ↔ f.IsManyToMany ∧ orderedPair model f.typeName = (p.left, p.right) ∧
      p.key? = f.givenKey? := by
  obtain ⟨left, right, key⟩ := p
  unfold Field.pairing? Field.IsManyToMany Field.givenKey?
  cases f.relation with
  | none => simp
  | some r =>
      obtain ⟨kind, foreignKey⟩ := r
      cases kind <;> cases f.isColumn <;>
        simp [Pairing.mk.injEq, Prod.ext_iff, and_assoc, eq_comm]

namespace Schema

variable {s s' : Schema} {left right : String} {j : JoinTable}

/-- The name that a declaration gives to the table of a pair. -/
def keyOfPair? (left right : String) (declaration : String × Field) : Option String :=
  (declaration.2.pairing? declaration.1).bind fun p =>
    if p.left = left ∧ p.right = right then p.key? else none

/-- A declaration gives a pair a name exactly if it relates the two models and its field gives it.
-/
theorem keyOfPair?_eq_some_iff (h : left ≤ right) {x : String × Field} {key : String} :
    keyOfPair? left right x = some key ↔
      Field.Relates left right x ∧ x.2.givenKey? = some key := by
  unfold keyOfPair? Field.Relates
  rw [Option.bind_eq_some_iff, ← orderedPair_eq_iff h]
  constructor
  · rintro ⟨p, hp, hkey⟩
    obtain ⟨hmany, hpair, hgiven⟩ := Field.pairing?_eq_some_iff.mp hp
    split at hkey
    next heq =>
        obtain ⟨rfl, rfl⟩ := heq
        exact ⟨⟨hmany, hpair⟩, hgiven ▸ hkey⟩
    next => cases hkey
  · rintro ⟨⟨hmany, hpair⟩, hkey⟩
    exact ⟨⟨left, right, x.2.givenKey?⟩, Field.pairing?_eq_some_iff.mpr ⟨hmany, hpair, rfl⟩, by
      rw [if_pos ⟨rfl, rfl⟩, hkey]⟩

theorem keyOfPair?_eq_none_iff (h : left ≤ right) {x : String × Field} :
    keyOfPair? left right x = none ↔ (Field.Relates left right x → x.2.givenKey? = none) := by
  rw [Option.eq_none_iff_forall_ne_some, Option.eq_none_iff_forall_ne_some]
  simp only [ne_eq, keyOfPair?_eq_some_iff h, not_and]
  exact ⟨fun hnone hrelates key => hnone key hrelates, fun hnone key hrelates => hnone hrelates key⟩

theorem pairings_eq (s : Schema) :
    s.pairings = s.declared.filterMap fun x => x.2.pairing? x.1 := by
  unfold pairings declared
  rw [List.filterMap_flatMap]
  exact List.flatMap_congr fun m _ => by rw [List.filterMap_map]; rfl

theorem givenName?_eq (s : Schema) (left right : String) :
    s.givenName? left right = s.declared.findSome? (keyOfPair? left right) := by
  unfold givenName?
  rw [pairings_eq, ← List.head?_filterMap, List.filterMap_filterMap, List.head?_filterMap]
  rfl

/-- A pair is one of the schema exactly if a declaration relates the two models. -/
theorem mem_pairs_iff_relates (h : left ≤ right) :
    (left, right) ∈ s.pairs ↔ ∃ x ∈ s.declared, Field.Relates left right x := by
  unfold declared Field.Relates
  simp only [mem_pairs_iff, eq_comm (a := (left, right)), orderedPair_eq_iff h, List.mem_flatMap,
    List.mem_map]
  constructor
  · rintro ⟨m, hm, f, hf, hrelates⟩
    exact ⟨(m.name, f), ⟨m, hm, f, hf, rfl⟩, hrelates⟩
  · rintro ⟨x, ⟨m, hm, f, hf, rfl⟩, hrelates⟩
    exact ⟨m, hm, f, hf, hrelates⟩

theorem le_of_mem_pairs (h : (left, right) ∈ s.pairs) : left ≤ right := by
  obtain ⟨m, -, f, -, -, hpair⟩ := mem_pairs_iff.mp h
  have hle := orderedPair_le m.name f.typeName
  rwa [← hpair] at hle

/-- **Every join table** is that of a relation the schema declares. -/
theorem isOf_of_mem_joinTables (hj : j ∈ s.joinTables) : j.IsOf s := by
  obtain ⟨hpair, hname⟩ := mem_joinTables_iff.mp hj
  have hle := le_of_mem_pairs hpair
  refine ⟨hle, (mem_pairs_iff_relates hle).mp hpair, ?_⟩
  rw [givenName?_eq] at hname
  cases hfirst : s.declared.findSome? (keyOfPair? j.left j.right) with
  | some key =>
      rw [hfirst, Option.getD_some] at hname
      subst hname
      obtain ⟨before, x, after, hsplit, hx, hbefore⟩ := List.findSome?_eq_some_iff.mp hfirst
      obtain ⟨hrelates, hkey⟩ := (keyOfPair?_eq_some_iff hle).mp hx
      exact .inl ⟨before, x, after, hsplit, hrelates, hkey, fun y hy =>
        (keyOfPair?_eq_none_iff hle).mp (hbefore y hy)⟩
  | none =>
      rw [hfirst, Option.getD_none] at hname
      exact .inr ⟨fun x hx => (keyOfPair?_eq_none_iff hle).mp
        (List.findSome?_eq_none_iff.mp hfirst x hx), hname⟩

/-! ### One declaration more -/

/-- A field more is a declaration more. -/
theorem AddsField.exists_declared {model : String} {f : Field} (h : AddsField model f s s') :
    ∃ before after, s.declared = before ++ after ∧
      s'.declared = before ++ (model, f) :: after := by
  obtain ⟨before, after, m, fields, more, rfl⟩ := h
  refine ⟨declared ⟨before⟩ ++ fields.map fun f => (m.name, f),
    (more.map fun f => (m.name, f)) ++ declared ⟨after⟩, ?_, ?_⟩ <;>
    simp [declared]

/-- **Declaring a relation again** adds no join table and renames none, if the second declaration
gives no name. -/
theorem joinTables_addsField {model : String} {f : Field} (h : AddsField model f s s')
    (hkey : f.givenKey? = none)
    (hagain : f.IsManyToMany → ∃ x ∈ s.declared, Field.Relates model f.typeName x) :
    s'.joinTables.Perm s.joinTables := by
  obtain ⟨before, after, hs, hs'⟩ := h.exists_declared
  have hpairs : ∀ left right, left ≤ right →
      ((left, right) ∈ s'.pairs ↔ (left, right) ∈ s.pairs) := fun left right hle => by
    rw [mem_pairs_iff_relates hle, mem_pairs_iff_relates hle]
    constructor
    · rintro ⟨x, hx, hrelates⟩
      rw [hs', List.mem_append, List.mem_cons] at hx
      rcases hx with hx | rfl | hx
      · exact ⟨x, hs ▸ List.mem_append_left _ hx, hrelates⟩
      · -- what the new field declares is declared already
        obtain ⟨y, hy, hmany, hnames⟩ := hagain hrelates.1
        refine ⟨y, hy, hmany, ?_⟩
        rcases hrelates.2 with ⟨rfl, rfl⟩ | ⟨rfl, rfl⟩
        · exact hnames
        · exact hnames.symm
      · exact ⟨x, hs ▸ List.mem_append_right _ hx, hrelates⟩
    · rintro ⟨x, hx, hrelates⟩
      refine ⟨x, ?_, hrelates⟩
      rw [hs, List.mem_append] at hx
      rw [hs', List.mem_append, List.mem_cons]
      exact hx.imp_right .inr
  have hnames : ∀ left right, left ≤ right →
      s'.givenName? left right = s.givenName? left right := fun left right hle => by
    have hnone : keyOfPair? left right (model, f) = none :=
      (keyOfPair?_eq_none_iff hle).mpr fun _ => hkey
    rw [givenName?_eq, givenName?_eq, hs, hs', List.findSome?_append, List.findSome?_append,
      List.findSome?_cons, hnone]
  refine (List.perm_ext_iff_of_nodup s'.joinTables_nodup s.joinTables_nodup).mpr fun j => ?_
  rw [mem_joinTables_iff, mem_joinTables_iff]
  constructor
  · rintro ⟨hpair, hname⟩
    have hle := le_of_mem_pairs hpair
    exact ⟨(hpairs _ _ hle).mp hpair, hnames _ _ hle ▸ hname⟩
  · rintro ⟨hpair, hname⟩
    have hle := le_of_mem_pairs hpair
    exact ⟨(hpairs _ _ hle).mpr hpair, (hnames _ _ hle).symm ▸ hname⟩

/-! ### Keys -/

/-- The key by which a join table refers to a model: the field that is marked as its primary key,
the first if several are, if that is a column, and otherwise `id`. -/
def HasKey (s : Schema) (model key : String) : Prop :=
  (∃ m f, s.model? model = some m ∧ m.primaryKey? = some f ∧ f.isColumn ∧ key = f.name) ∨
    ((∀ m f, s.model? model = some m → m.primaryKey? = some f → ¬ f.isColumn) ∧ key = "id")

/-- A join table refers to the key of a model. -/
theorem hasKey_keyOf (d : Dialect) (s : Schema) (model : String) :
    s.HasKey model (Plan.keyOf d s model).1 := by
  unfold Plan.keyOf
  cases h : ((s.model? model).bind Model.primaryKey?).filter Field.isColumn with
  | some f =>
      obtain ⟨hkey, hcolumn⟩ := Option.filter_eq_some_iff.mp h
      obtain ⟨m, hm, hf⟩ := Option.bind_eq_some_iff.mp hkey
      exact .inl ⟨m, f, hm, hf, hcolumn, rfl⟩
  | none =>
      refine .inr ⟨fun m f hm hf => ?_, rfl⟩
      rw [hm, Option.bind_some, hf] at h
      simpa using Option.filter_eq_none_iff.mp h f rfl

/-- The names of the two columns of a join table begin differently. -/
theorem columns_ne (left right : String) : "A_" ++ left ≠ "B_" ++ right := fun h => by
  have hchars := congrArg String.toList h
  rw [String.toList_append, String.toList_append] at hchars
  exact absurd (List.cons.inj hchars).1 (by decide)

/-- **Join tables are canonical.**  Every join table is that of a many-to-many relation that the
schema declares, and there is one for any two models with a relation between them.  Whether a
relation is declared on the other side too, without a name, makes no difference to the tables.  A
join table is created with a column for the key of either model: both are declared, refer to their
models and are unique together. -/
theorem joinTables_canonical (s : Schema) :
    (∀ j ∈ s.joinTables, j.IsOf s) ∧
    (∀ x ∈ s.declared, x.2.IsManyToMany →
      s.joinTables.countP (·.joins x.1 x.2.typeName) = 1) ∧
    (∀ s', ∀ x ∈ s.declared, x.2.IsManyToMany → ∀ f : Field, f.typeName = x.1 →
      f.givenKey? = none → AddsField x.2.typeName f s s' → s'.joinTables.Perm s.joinTables) ∧
    ∀ d, ∀ j ∈ s.joinTables, ∃ left right leftType rightType,
      s.HasKey j.left left ∧ s.HasKey j.right right ∧ "A_" ++ left ≠ "B_" ++ right ∧
        (Plan.createJoinTable d s j).outcome = .ok (.createTable j.name
          [.column { name := "A_" ++ left, type := leftType, isNotNull := true },
           .column { name := "B_" ++ right, type := rightType, isNotNull := true },
           .foreignKey ("A_" ++ left) j.left left true,
           .foreignKey ("B_" ++ right) j.right right true,
           .unique ["A_" ++ left, "B_" ++ right]]) := by
  refine ⟨fun j => isOf_of_mem_joinTables, fun x hx hmany => ?_,
    fun s' x hx hmany f htype hkey h => ?_, fun d j _ => ?_⟩
  · obtain ⟨m, hm, hx⟩ := List.mem_flatMap.mp hx
    obtain ⟨f, hf, rfl⟩ := List.mem_map.mp hx
    exact countP_joins hm hf hmany
  · exact joinTables_addsField h hkey fun _ => ⟨x, hx, hmany, .inr ⟨htype.symm, rfl⟩⟩
  · exact ⟨_, _, _, _, hasKey_keyOf d s j.left, hasKey_keyOf d s j.right, columns_ne _ _,
      Plan.createJoinTable_outcome d s j⟩

/-- Users with friends and circles, and circles with their members. -/
def circles : Schema :=
  ⟨[{ name := "user"
      fields :=
        [{ name := "login", typeName := "string", isPrimaryKey := true },
         { name := "friends", typeName := "user", isArray := true
           relation := some ⟨.manyToMany, none⟩ },
         { name := "circles", typeName := "circle", isArray := true
           relation := some ⟨.manyToMany, some ""⟩ }] },
    { name := "circle"
      fields :=
        [{ name := "members", typeName := "user", isArray := true
           relation := some ⟨.manyToMany, some "membership"⟩ }] }]⟩

/-- Friends are kept in a table of users and users, and members in the table that circles name. -/
theorem circles_canonical : circles.joinTables =
      [⟨"_user_user", "user", "user"⟩, ⟨"membership", "circle", "user"⟩] ∧
    (∀ j ∈ circles.joinTables, j.IsOf circles) ∧
    circles.joinTables.countP (·.joins "user" "circle") = 1 ∧
    ∃ left right leftType rightType,
      circles.HasKey "user" left ∧ circles.HasKey "user" right ∧
        (Plan.createJoinTable .postgres circles ⟨"_user_user", "user", "user"⟩).outcome =
          .ok (.createTable "_user_user"
            [.column { name := "A_" ++ left, type := leftType, isNotNull := true },
             .column { name := "B_" ++ right, type := rightType, isNotNull := true },
             .foreignKey ("A_" ++ left) "user" left true,
             .foreignKey ("B_" ++ right) "user" right true,
             .unique ["A_" ++ left, "B_" ++ right]]) := by
  have htables : circles.joinTables =
      [⟨"_user_user", "user", "user"⟩, ⟨"membership", "circle", "user"⟩] := by decide +kernel
  obtain ⟨hof, hone, -, hcreated⟩ := joinTables_canonical circles
  refine ⟨htables, hof, ?_, ?_⟩
  · refine hone ("user", { name := "circles", typeName := "circle", isArray := true
                           relation := some ⟨.manyToMany, some ""⟩ }) ?_ ⟨⟨_, rfl⟩, by decide⟩
    simp [declared, circles]
  · obtain ⟨left, right, leftType, rightType, hleft, hright, -, h⟩ :=
      hcreated .postgres ⟨"_user_user", "user", "user"⟩ (htables ▸ List.mem_cons_self)
    exact ⟨left, right, leftType, rightType, hleft, hright, h⟩

end Schema

end Schemata
