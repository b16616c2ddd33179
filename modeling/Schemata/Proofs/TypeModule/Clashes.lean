import Mathlib.Data.List.Nodup
import Schemata.Proofs.Schema.Names
import Schemata.Proofs.TypeModule.Bindings

/-!
# Proofs — type modules — clashes

Every model has a class, and so has every shape of a `json` field, at any depth.  The class is named
for the path to it (`Schema.paths`): the model, the field and `shape`, and the keys down to the
shape, joined by underscores.

Nothing sees to it that the names differ.  A module binds each name once, and no keyword, just if no
two paths have the same words and no model has the name of something that the module itself binds
(`Schema.ClassesApart`); the table then gives every model the class that is made of its own fields
(`Schema.bindings_nodup_iff`).
-/

namespace Schemata

open Text

/-! ### Paths -/

mutual

/-- The paths to a shape and to those inside it, in the order of their blocks. -/
def Shape.paths (path : String) (s : Shape) : List String :=
  match s with
  | ⟨_, _, entries, _⟩ => entryListPaths path entries ++ [path]

/-- The paths to the shapes inside keys. -/
def entryListPaths (owner : String) : List ShapeEntry → List String
  | [] => []
  | e :: es => entryPaths owner e ++ entryListPaths owner es

/-- The paths to the shape inside a key. -/
def entryPaths (owner : String) : ShapeEntry → List String
  | ⟨key, _, _, _, shape⟩ => optionPaths (owner ++ "_" ++ key) shape

/-- The paths to a shape that may not be there. -/
def optionPaths (path : String) : Option Shape → List String
  | none => []
  | some s => Shape.paths path s

end

/-- The paths to the shapes of a field. -/
def Field.paths (owner : String) (f : Field) : List String :=
  if f.typeName = Scalar.json.name then
    optionPaths (owner ++ "_" ++ f.name ++ "_" ++ "shape") f.shape
  else []

/-- The paths to the shapes of a model, and then to itself. -/
def Model.paths (m : Model) : List String := m.fields.flatMap (Field.paths m.name) ++ [m.name]

/-- The paths to all classes of a schema. -/
def Schema.paths (s : Schema) : List String := s.models.flatMap Model.paths

/-! ### Classes of shapes -/

theorem IsClassName.append {a b : String} (ha : IsClassName a) (hb : IsPlainName b) :
    IsClassName (a ++ b) := by
  obtain ⟨c, cs, hname, hc⟩ := ha.capital
  refine ⟨ha.plain.append hb, c, cs ++ b.toList, ?_, hc⟩
  rw [String.toList_append, hname, List.cons_append]

/-- Types are written on one line if the names in them are. -/
theorem EntryType.isOneLine_listIf {t : EntryType} (h : IsOneLine t.text) (isArray : Bool) :
    IsOneLine (t.listIf isArray).text := by
  unfold EntryType.listIf
  split
  · unfold EntryType.text
    exact isOneLine_append_iff.mpr ⟨isOneLine_append_iff.mpr ⟨by decide, h⟩, by decide⟩
  · exact h

theorem EntryType.isOneLine_notRequired {t : EntryType} (h : IsOneLine t.text) :
    IsOneLine (EntryType.notRequired t).text := by
  unfold EntryType.text
  exact isOneLine_append_iff.mpr ⟨isOneLine_append_iff.mpr ⟨by decide, h⟩, by decide⟩

theorem EntryType.isOneLine_orNone {t : EntryType} (h : IsOneLine t.text) :
    IsOneLine (EntryType.orNone t).text := by
  unfold EntryType.text
  exact isOneLine_append_iff.mpr ⟨h, by decide⟩

/-- What is found in a table of types, or else the type of anything. -/
theorem getD_lookup_mem (table : List (String × String)) (key : String) :
    (table.lookup key).getD "Any" ∈ "Any" :: table.map Prod.snd := by
  cases hlookup : table.lookup key with
  | none => exact List.mem_cons_self
  | some type =>
      obtain ⟨before, after, htable, -⟩ := List.lookup_eq_some_iff.mp hlookup
      exact List.mem_cons_of_mem _ (List.mem_map.mpr ⟨(key, type), by simp [htable], rfl⟩)

namespace Shape

variable {es : List ShapeEntry} {owner name : String}

/-- The type of a key is one line. -/
theorem isOneLine_entryType {e : ShapeEntry} (hname : IsPlainName e.name)
    (howner : IsPlainName owner) : IsOneLine (e.entryType owner).text := by
  have htable : ∀ t ∈ "Any" :: leafTypes.map Prod.snd, IsOneLine t := by decide
  have hbase : IsOneLine (if e.shape.isSome then EntryType.named (nestedName owner e.name)
      else .named ((leafTypes.lookup (lower e.typeName)).getD "Any")).text := by
    split
    · exact (howner.append hname.className).isOneLine
    · exact htable _ (getD_lookup_mem leafTypes _)
  unfold ShapeEntry.entryType
  dsimp only
  split
  · exact EntryType.isOneLine_notRequired
      (EntryType.isOneLine_orNone (EntryType.isOneLine_listIf hbase _))
  · exact EntryType.isOneLine_listIf hbase _

theorem isPlain_of_areExpressible (h : AreExpressible es) : ∀ e ∈ es, IsPlainName e.name := by
  induction h with
  | nil => nofun
  | leaf named typed fresh rest ih => exact List.forall_mem_cons.mpr ⟨named.isPlain, ih⟩
  | object named fresh inside rest ihInside ih =>
      exact List.forall_mem_cons.mpr ⟨named.isPlain, ih⟩

/-- The block of a shape is proper. -/
theorem isProper_block {s : Shape} (h : s.IsExpressible) (hname : IsClassName name) :
    (block name s).IsProper where
  name := hname
  keys e he := by
    obtain ⟨entry, hentry, rfl⟩ := List.mem_map.mp he
    exact isPlain_of_areExpressible h entry hentry
  types e he := by
    obtain ⟨entry, hentry, rfl⟩ := List.mem_map.mp he
    exact isOneLine_entryType (isPlain_of_areExpressible h entry hentry) hname.plain

/-- The blocks inside keys are proper, and their names begin with that of the class. -/
theorem isProper_of_mem_entryListBlocks (h : AreExpressible es) (howner : IsClassName owner) :
    ∀ b ∈ entryListBlocks owner es, b.IsProper ∧ owner.toList <+: b.name.toList := by
  induction h generalizing owner with
  | nil => nofun
  | leaf named typed fresh rest ih => exact ih howner
  | @object key raw isOptional isArray position inner es named fresh inside rest ihInside ih =>
      have hnested : IsClassName (nestedName owner key) := howner.append named.isPlain.className
      have hprefix : owner.toList <+: (nestedName owner key).toList := by
        unfold nestedName
        rw [String.toList_append]
        exact List.prefix_append _ _
      intro b hb
      rcases List.mem_append.mp hb with hb | hb
      · rcases List.mem_append.mp hb with hb | hb
        · obtain ⟨hproper, hbegins⟩ := ihInside hnested b hb
          exact ⟨hproper, hprefix.trans hbegins⟩
        · obtain rfl := List.mem_singleton.mp hb
          exact ⟨isProper_block inside hnested, hprefix⟩
      · exact ih howner b hb

/-- The blocks inside keys are named for the paths to them. -/
theorem names_entryListBlocks (h : AreExpressible es) (howner : IsPlainName owner) :
    (entryListBlocks (className owner) es).map TypeBlock.name =
        (entryListPaths owner es).map className ∧
      ∀ p ∈ entryListPaths owner es, IsPlainName p := by
  induction h generalizing owner with
  | nil => exact ⟨rfl, nofun⟩
  | leaf named typed fresh rest ih => exact ih howner
  | @object key raw isOptional isArray position inner es named fresh inside rest ihInside ih =>
      have hpath := howner.append_underscore named.isPlain
      have hname : nestedName (className owner) key = className (owner ++ "_" ++ key) :=
        (className_append howner named.isPlain).symm
      obtain ⟨hinside, hplain⟩ := ihInside hpath
      obtain ⟨hrest, hplain'⟩ := ih howner
      constructor
      · simp only [entryListBlocks, entryBlocks, optionBlocks, blocks, entryListPaths, entryPaths,
          optionPaths, paths, hname, List.map_append, hinside, hrest]
        rfl
      · intro p hp
        rcases List.mem_append.mp hp with hp | hp
        · rcases List.mem_append.mp hp with hp | hp
          · exact hplain p hp
          · exact List.mem_singleton.mp hp ▸ hpath
        · exact hplain' p hp

/-- The blocks of a shape, if there is one, are proper, and their names begin with its own. -/
theorem isProper_of_mem_optionBlocks {shape : Option Shape}
    (h : ∀ s, shape = some s → s.IsExpressible) (hname : IsClassName name) :
    ∀ b ∈ optionBlocks name shape, b.IsProper ∧ name.toList <+: b.name.toList := by
  cases shape with
  | none => nofun
  | some s =>
      have hs := h s rfl
      obtain ⟨raw, isArray, entries, position⟩ := s
      intro b hb
      rcases List.mem_append.mp hb with hb | hb
      · exact isProper_of_mem_entryListBlocks hs hname b hb
      · obtain rfl := List.mem_singleton.mp hb
        exact ⟨isProper_block hs hname, List.prefix_refl _⟩

/-- The classes of a shape, if there is one, are named for the paths to them. -/
theorem names_optionBlocks {shape : Option Shape} {path : String}
    (h : ∀ s, shape = some s → s.IsExpressible) (hpath : IsPlainName path) :
    (optionBlocks (className path) shape).map TypeBlock.name =
        (optionPaths path shape).map className ∧
      ∀ p ∈ optionPaths path shape, IsPlainName p := by
  cases shape with
  | none => exact ⟨rfl, nofun⟩
  | some s =>
      obtain ⟨hnames, hplain⟩ := names_entryListBlocks (h s rfl) hpath
      obtain ⟨raw, isArray, entries, position⟩ := s
      constructor
      · simp only [optionBlocks, blocks, optionPaths, paths, List.map_append, hnames]
        rfl
      · intro p hp
        rcases List.mem_append.mp hp with hp | hp
        · exact hplain p hp
        · exact List.mem_singleton.mp hp ▸ hpath

end Shape

/-! ### Classes of models -/

namespace Field

variable {f : Field} {owner : String}

/-- The blocks of a field are proper, and their names begin with that of its shape. -/
theorem isProper_of_mem_shapeBlocks (hf : IsPlainName f.name)
    (hshape : ∀ s, f.shape = some s → s.IsExpressible) (howner : IsClassName owner) :
    ∀ b ∈ f.shapeBlocks owner, b.IsProper ∧ (shapeName owner f.name).toList <+: b.name.toList := by
  have hname : IsClassName (shapeName owner f.name) :=
    (howner.append hf.className).append (by decide)
  unfold shapeBlocks
  split
  · exact Shape.isProper_of_mem_optionBlocks hshape hname
  · nofun

/-- The classes of a field are named for the paths to them. -/
theorem names_shapeBlocks (hf : IsPlainName f.name)
    (hshape : ∀ s, f.shape = some s → s.IsExpressible) (howner : IsPlainName owner) :
    (f.shapeBlocks (className owner)).map TypeBlock.name = (f.paths owner).map className ∧
      ∀ p ∈ f.paths owner, IsPlainName p := by
  have hfield := howner.append_underscore hf
  have hshapeClass : className "shape" = "Shape" := by decide +kernel
  have hname : shapeName (className owner) f.name =
      className (owner ++ "_" ++ f.name ++ "_" ++ "shape") := by
    rw [className_append hfield (by decide), className_append howner hf, hshapeClass, shapeName]
  unfold shapeBlocks paths
  split
  · rw [hname]
    exact Shape.names_optionBlocks hshape (hfield.append_underscore (by decide))
  · exact ⟨rfl, nofun⟩

end Field

namespace Schema

variable {s : Schema}

/-- The class of a type is one line. -/
theorem isOneLine_typeClass (h : ∀ n ∈ s.modelNames, IsPlainName n) (typeName : String) :
    IsOneLine ((s.typeClass? typeName).getD "Any") := by
  have htable : ∀ t ∈ "Any" :: scalarTypes.map Prod.snd, IsOneLine t := by decide
  unfold typeClass?
  split
  next name hlookup =>
      have hname := htable _ (getD_lookup_mem scalarTypes typeName)
      rwa [hlookup] at hname
  next =>
      split
      next hmodel => exact (h typeName (List.contains_iff_mem.mp hmodel)).className.isOneLine
      next => decide

/-- The type of a field is one line. -/
theorem isOneLine_entryType (h : ∀ n ∈ s.modelNames, IsPlainName n) {owner : String}
    (howner : IsPlainName owner) {f : Field} (hf : IsPlainName f.name) :
    IsOneLine (f.entryType s owner).text := by
  have hvalue : IsOneLine (f.valueType s owner).text := by
    unfold Field.valueType
    split
    · split
      · refine EntryType.isOneLine_listIf ?_ _
        exact ((howner.append hf.className).append (b := "Shape") (by decide)).isOneLine
      · exact EntryType.isOneLine_listIf (by decide) _
    · refine EntryType.isOneLine_listIf ?_ _
      exact isOneLine_typeClass h _
  unfold Field.entryType
  dsimp only
  split
  · exact hvalue
  · exact EntryType.isOneLine_notRequired hvalue

/-- The block of a model's own fields. -/
def ownBlock (s : Schema) (m : Model) : TypeBlock :=
  ⟨className m.name, m.fields.map fun f => (f.name, f.entryType s (className m.name))⟩

theorem mem_ownBlock {m : Model} (hm : m ∈ s.models) : s.ownBlock m ∈ s.typeBlocks :=
  List.mem_flatMap.mpr ⟨m, hm, List.mem_append_right _ List.mem_cons_self⟩

namespace IsAccepted

variable (hs : s.IsAccepted) {m : Model}

include hs

theorem isPlain (hm : m ∈ s.models) :
    IsPlainName m.name ∧ ∀ f ∈ m.fields, IsPlainName f.name := by
  have hworded := hs.isWorded m hm
  obtain ⟨hname, hfields⟩ := hs.isSnakeCase hm
  exact ⟨isPlain_of_isSnakeCase hworded.name.isOneLine hname, fun f hf =>
    isPlain_of_isSnakeCase (hworded.fields f hf).1.isOneLine (hfields f hf)⟩

theorem isPlain_of_mem_modelNames : ∀ n ∈ s.modelNames, IsPlainName n := by
  intro n hn
  obtain ⟨m, hm, rfl⟩ := List.mem_map.mp hn
  exact (hs.isPlain hm).1

/-- The class of a model begins with a capital, since the name begins with a letter. -/
theorem isClassName (hm : m ∈ s.models) : IsClassName (className m.name) := by
  obtain ⟨c, cs, hname, hc, -⟩ := (hs.isWorded m hm).name
  obtain ⟨d, ds, hname', hd⟩ := exists_cons_of_isSnakeCase (hs.isSnakeCase hm).1
  rw [hname] at hname'
  cases hname'
  refine .className (hs.isPlain hm).1 hname ?_
  rw [isSnakeChar, Bool.or_eq_true] at hd
  refine hd.resolve_right fun hdigit => ?_
  have hrange := isDigit_iff.mp hdigit
  unfold Lexeme.isWordStart Char.isAlpha at hc
  rw [Bool.or_eq_true, Bool.or_eq_true, isUpper_iff, isLower_iff, beq_iff_eq] at hc
  rcases hc with (hc | hc) | rfl
  · omega
  · omega
  · exact absurd hdigit (by decide)

/-- A block is proper.  It is that of a model, or it has a shape in its name. -/
theorem isProper_of_mem_typeBlocks {b : TypeBlock} (hb : b ∈ s.typeBlocks) :
    b.IsProper ∧ ((∃ m ∈ s.models, b = s.ownBlock m) ∨ "Shape".toList <:+: b.name.toList) := by
  obtain ⟨m, hm, hb⟩ := List.mem_flatMap.mp hb
  obtain ⟨hname, hfields⟩ := hs.isPlain hm
  have hclass := hs.isClassName hm
  rcases List.mem_append.mp hb with hb | hb
  · obtain ⟨f, hf, hb⟩ := List.mem_flatMap.mp hb
    obtain ⟨hproper, hbegins⟩ := Field.isProper_of_mem_shapeBlocks (hfields f hf)
      ((hs.isWorded m hm).fields f hf).2 hclass b hb
    refine ⟨hproper, .inr (List.IsInfix.trans ?_ hbegins.isInfix)⟩
    unfold shapeName
    rw [String.toList_append]
    exact (List.suffix_append _ _).isInfix
  · obtain rfl := List.mem_singleton.mp hb
    refine ⟨⟨hclass, fun e he => ?_, fun e he => ?_⟩, .inl ⟨m, hm, rfl⟩⟩
    · obtain ⟨f, hf, rfl⟩ := List.mem_map.mp he
      exact hfields f hf
    · obtain ⟨f, hf, rfl⟩ := List.mem_map.mp he
      exact isOneLine_entryType hs.isPlain_of_mem_modelNames hclass.plain (hfields f hf)

/-- The classes are named for the paths to them. -/
theorem names_typeBlocks : s.typeBlocks.map TypeBlock.name = s.paths.map className ∧
    ∀ p ∈ s.paths, IsPlainName p := by
  have hfields : ∀ m ∈ s.models, ∀ f ∈ m.fields,
      (f.shapeBlocks (className m.name)).map TypeBlock.name = (f.paths m.name).map className ∧
        ∀ p ∈ f.paths m.name, IsPlainName p := fun m hm f hf =>
    Field.names_shapeBlocks ((hs.isPlain hm).2 f hf) ((hs.isWorded m hm).fields f hf).2
      (hs.isPlain hm).1
  constructor
  · unfold typeBlocks paths
    rw [List.map_flatMap, List.map_flatMap]
    refine List.flatMap_congr fun m hm => ?_
    unfold Model.typeBlocks Model.paths
    dsimp only
    rw [List.map_append, List.map_append, List.map_flatMap, List.map_flatMap,
      List.flatMap_congr fun f hf => (hfields m hm f hf).1]
    rfl
  · intro p hp
    obtain ⟨m, hm, hp⟩ := List.mem_flatMap.mp hp
    rcases List.mem_append.mp hp with hp | hp
    · obtain ⟨f, hf, hp⟩ := List.mem_flatMap.mp hp
      exact (hfields m hm f hf).2 p hp
    · exact List.mem_singleton.mp hp ▸ (hs.isPlain hm).1

end IsAccepted

/-! ### Clashes -/

/-- The names in snake case of what a module binds besides its blocks, and of the keywords that
begin with a capital. -/
def takenNames : List String :=
  ["any", "literal", "not_required", "typed_dict", "model_name", "m_o_d_e_l_s", "none", "true",
   "false"]

/-- No two paths have the same words, and no model has a name that is taken. -/
structure ClassesApart (s : Schema) : Prop where
  words : (s.paths.map wordForm).Nodup
  free : ∀ n ∈ s.modelNames, n ∉ takenNames

instance (s : Schema) : Decidable s.ClassesApart :=
  decidable_of_iff ((s.paths.map wordForm).Nodup ∧ ∀ n ∈ s.modelNames, n ∉ takenNames)
    ⟨fun h => ⟨h.1, h.2⟩, fun h => ⟨h.words, h.free⟩⟩

/-- The block that a name is bound to, which is the last one of the name. -/
def boundBlock? (s : Schema) (name : String) : Option TypeBlock :=
  s.typeBlocks.reverse.find? fun b => b.name == name

/-- What the table of the module maps the names of models to. -/
def classTable (s : Schema) : List (String × Option TypeBlock) :=
  (tabled s.typeModuleText).map fun (key, name) => (key, s.boundBlock? name)

/-- What blocks cannot be called without a clash. -/
def fixedNames : List String := importedNames ++ indexNames ++ reservedWords

/-- A model has the name of something fixed for its class exactly if it is called like one of these.
-/
theorem className_mem_fixedNames_iff {n : String} (hline : IsOneLine n)
    (hsnake : isSnakeCase n = true) (hclass : IsClassName (className n)) :
    className n ∈ fixedNames ↔ n ∈ takenNames := by
  have htaken : ∀ t ∈ takenNames, IsOneLine t ∧ isSnakeCase t = true ∧
      (t.toList.all fun c => !c.isDigit) = true := by decide +kernel
  have hfixed : ∀ t ∈ fixedNames, (t.toList.head?.map Char.isUpper) = some true →
      t ∈ takenNames.map className := by decide +kernel
  have htakenFixed : ∀ t ∈ takenNames, className t ∈ fixedNames := by decide +kernel
  constructor
  · intro hmem
    obtain ⟨c, cs, hname, hc⟩ := hclass.capital
    obtain ⟨t, ht, heq⟩ := List.mem_map.mp (hfixed _ hmem (by simp [hname, hc]))
    obtain ⟨hline', hsnake', hdigits⟩ := htaken t ht
    have hnone : ∀ c ∈ t.toList, c.isDigit = false := by
      simpa using hdigits
    rwa [eq_of_className_eq hline hline' hsnake hsnake' hnone heq.symm]
  · exact htakenFixed n

/-- No class of a shape has the name of something fixed. -/
theorem not_mem_fixedNames_of_shape {name : String} (hclass : IsClassName name)
    (hshape : "Shape".toList <:+: name.toList) : name ∉ fixedNames := by
  -- one letter of the word tells these names from the ones that begin with a capital
  have hfixed : ∀ t ∈ fixedNames, (t.toList.head?.map Char.isUpper) = some true →
      'h' ∉ t.toList := by decide +kernel
  obtain ⟨c, cs, hname, hc⟩ := hclass.capital
  exact fun hmem => hfixed name hmem (by simp [hname, hc]) (hshape.subset (by decide))

/-- No class has the name of something fixed exactly if no model is called like one of these. -/
theorem IsAccepted.forall_not_mem_fixedNames_iff (hs : s.IsAccepted) :
    (∀ b ∈ s.typeBlocks, b.name ∉ fixedNames) ↔ ∀ n ∈ s.modelNames, n ∉ takenNames := by
  have hmodel : ∀ m ∈ s.models, className m.name ∈ fixedNames ↔ m.name ∈ takenNames :=
    fun m hm => className_mem_fixedNames_iff (hs.isWorded m hm).name.isOneLine
      (hs.isSnakeCase hm).1 (hs.isClassName hm)
  constructor
  · intro h n hn
    obtain ⟨m, hm, rfl⟩ := List.mem_map.mp hn
    exact mt (hmodel m hm).mpr (h _ (mem_ownBlock hm))
  · intro h b hb
    obtain ⟨hproper, ⟨m, hm, rfl⟩ | hshape⟩ := hs.isProper_of_mem_typeBlocks hb
    · exact mt (hmodel m hm).mp (h _ (List.mem_map_of_mem hm))
    · exact not_mem_fixedNames_of_shape hproper.name hshape

/-- Classes have different names just if the paths to them have different words. -/
theorem IsAccepted.names_nodup_iff_words (hs : s.IsAccepted) :
    (s.typeBlocks.map TypeBlock.name).Nodup ↔ (s.paths.map wordForm).Nodup := by
  obtain ⟨hnames, hplain⟩ := hs.names_typeBlocks
  rw [hnames]
  unfold List.Nodup
  rw [List.pairwise_map, List.pairwise_map]
  exact List.Pairwise.iff_of_mem fun ha hb =>
    not_congr (className_eq_iff (hplain _ ha) (hplain _ hb))

/-- Names between those that every module binds. -/
theorem apart_iff_of_fixedNames {names : List String} :
    (importedNames ++ names ++ indexNames).Nodup ∧
        (∀ n ∈ importedNames ++ names ++ indexNames, n ∉ reservedWords) ↔
      names.Nodup ∧ ∀ n ∈ names, n ∉ fixedNames := by
  have hperm : (importedNames ++ names ++ indexNames).Perm
      (importedNames ++ indexNames ++ names) := by
    rw [List.append_assoc, List.append_assoc]
    exact List.perm_append_comm.append_left _
  have hbound : (importedNames ++ indexNames).Nodup := by decide
  have hreserved : ∀ n ∈ importedNames ++ indexNames, n ∉ reservedWords := by decide
  rw [hperm.nodup_iff, List.nodup_append']
  unfold fixedNames
  constructor
  · rintro ⟨⟨-, hnames, hdisjoint⟩, hfree⟩
    refine ⟨hnames, fun n hn hmem => ?_⟩
    rcases List.mem_append.mp hmem with hmem | hmem
    · exact hdisjoint hmem hn
    · exact hfree n (hperm.mem_iff.mpr (List.mem_append_right _ hn)) hmem
  · rintro ⟨hnames, hfree⟩
    refine ⟨⟨hbound, hnames, fun n hmem hn => hfree n hn (List.mem_append_left _ hmem)⟩, ?_⟩
    intro n hmem
    rcases List.mem_append.mp (hperm.mem_iff.mp hmem) with hmem | hn
    · exact hreserved n hmem
    · exact fun hword => hfree n hn (List.mem_append_right _ hword)

theorem IsAccepted.bindings_typeModuleText (hs : s.IsAccepted) : bindings s.typeModuleText =
    importedNames ++ s.typeBlocks.map TypeBlock.name ++ indexNames :=
  Schema.bindings_typeModuleText (fun _ hb => (hs.isProper_of_mem_typeBlocks hb).1)
    hs.isPlain_of_mem_modelNames

theorem IsAccepted.classTable_eq (hs : s.IsAccepted) :
    s.classTable = s.modelNames.map fun n => (n, s.boundBlock? (className n)) := by
  unfold classTable
  rw [tabled_typeModuleText (fun _ hb => (hs.isProper_of_mem_typeBlocks hb).1)
    hs.isPlain_of_mem_modelNames, List.map_map]
  rfl

/-- **What a module binds.**  Each name is bound once and none is a keyword just if the classes are
apart, and then the table gives every model the class of its own fields. -/
theorem bindings_nodup_iff (hs : s.IsAccepted) :
    ((bindings s.typeModuleText).Nodup ∧ (∀ n ∈ bindings s.typeModuleText, n ∉ reservedWords) ↔
        s.ClassesApart) ∧
      (s.ClassesApart → s.classTable = s.models.map fun m => (m.name, some (s.ownBlock m))) := by
  have hwords := hs.names_nodup_iff_words
  constructor
  · rw [hs.bindings_typeModuleText, apart_iff_of_fixedNames, hwords, List.forall_mem_map,
      hs.forall_not_mem_fixedNames_iff]
    exact ⟨fun h => ⟨h.1, h.2⟩, fun h => ⟨h.words, h.free⟩⟩
  · intro hapart
    have hnodup : (s.typeBlocks.reverse.map TypeBlock.name).Nodup := by
      rw [List.map_reverse]
      exact List.nodup_reverse.mpr (hwords.mpr hapart.words)
    rw [hs.classTable_eq, modelNames, List.map_map]
    refine List.map_congr_left fun m hm => congrArg (m.name, ·) ?_
    exact (find?_name_eq_some_iff hnodup).mpr ⟨List.mem_reverse.mpr (mem_ownBlock hm), rfl⟩

/-- A source with profiles that have a shape with another one inside. -/
def profilesSource : String :=
  "model user_profile \x7b\n  meta json \x7b origin: \x7b city: string \x7d \x7d\n\x7d\n"

/-- The schema of that source. -/
def profiles : Schema :=
  ⟨[{ name := "user_profile"
      fields :=
        [{ name := "meta", typeName := "json"
           shape := some
             { raw := "\x7b origin: \x7b city: string \x7d \x7d"
               isArray := false
               entries :=
                 [{ name := "origin", typeName := "object", isOptional := false, isArray := false
                    shape := some
                      { raw := "\x7b city: string \x7d"
                        isArray := false
                        entries :=
                          [{ name := "city", typeName := "string", isOptional := false
                             isArray := false, shape := none }]
                        position := ⟨2, 23⟩ } }]
               position := ⟨2, 13⟩ }
           position := ⟨2, 3⟩ }]
      position := ⟨1, 1⟩ }]⟩

theorem profiles_compiles : profiles.Compiles :=
  @Compiles.of_source profilesSource _ profiles (Text.toList_of_eq rfl) (by decide +kernel)

/-- Profiles and their two shapes have classes of their own. -/
theorem profiles_bound : profiles.IsAccepted ∧
    profiles.paths =
      ["user_profile_meta_shape_origin", "user_profile_meta_shape", "user_profile"] ∧
    (bindings profiles.typeModuleText).Nodup ∧
    profiles.classTable = profiles.models.map fun m => (m.name, some (profiles.ownBlock m)) := by
  have hpaths : profiles.paths =
      ["user_profile_meta_shape_origin", "user_profile_meta_shape", "user_profile"] := by
    decide +kernel
  obtain ⟨hbindings, htable⟩ := bindings_nodup_iff profiles_compiles.isAccepted
  have hapart : profiles.ClassesApart := by
    refine ⟨?_, by decide⟩
    rw [hpaths]
    decide +kernel
  exact ⟨profiles_compiles.isAccepted, hpaths, (hbindings.mpr hapart).1, htable hapart⟩

/-- A source with two models whose names differ by an underscore before a digit. -/
def ordersSource : String :=
  "model order_2 \x7b\n  total int\n\x7d\nmodel order2 \x7b\n  note string\n\x7d\n"

/-- The schema of that source. -/
def orders : Schema :=
  ⟨[{ name := "order_2", fields := [{ name := "total", typeName := "int", position := ⟨2, 3⟩ }]
      position := ⟨1, 1⟩ },
    { name := "order2", fields := [{ name := "note", typeName := "string", position := ⟨5, 3⟩ }]
      position := ⟨4, 1⟩ }]⟩

theorem orders_compiles : orders.Compiles :=
  @Compiles.of_source ordersSource _ orders (Text.toList_of_eq rfl) (by decide +kernel)

/-- **A class bound twice**: `Order2` is the class of both models, and the table gives the first one
the fields of the second. -/
theorem orders_rebound : orders.IsAccepted ∧ ¬ (bindings orders.typeModuleText).Nodup ∧
    orders.classTable.lookup "order_2" =
      some (some ⟨"Order2", [("note", .notRequired (.named "str"))]⟩) := by
  have hblocks : orders.typeBlocks = [⟨"Order2", [("total", .notRequired (.named "int"))]⟩,
      ⟨"Order2", [("note", .notRequired (.named "str"))]⟩] := by decide +kernel
  have hclass : className "order_2" = "Order2" := by decide +kernel
  refine ⟨orders_compiles.isAccepted, ?_, ?_⟩
  · rw [orders_compiles.isAccepted.bindings_typeModuleText, hblocks]
    decide
  · have hnames : orders.modelNames = ["order_2", "order2"] := rfl
    rw [orders_compiles.isAccepted.classTable_eq, hnames, List.map_cons, hclass]
    unfold boundBlock?
    rw [hblocks]
    rfl

end Schema

end Schemata
