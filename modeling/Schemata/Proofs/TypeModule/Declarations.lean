import Schemata.Proofs.TypeModule.Sites

/-!
# Proofs — type modules — declarations

What a module declares.  Every model and every shape of a `json` field has its block, at the place
that `Schema.exists_lists` gives it; here it is shown what is in a block (`Schema.Declares`), that
the classes named in it are blocks of the module too, and how it is written.

A key that may be missing is told by its type alone.  In a call the types are strings, and whether
the mark of such a key is there is read off the text of the type again (`forwardReference`); a class
whose own name reads like a marked type is taken for one (`TypeBlock.IsMisread`), and with no other
is a module written otherwise than it is declared (`Schema.typeModule_declares`).
-/

namespace Schemata

open Text

/-! ### Slots -/

/-- What a block has to say of a field or a key. -/
structure Slot where
  name : String
  isArray : Bool
  mayMiss : Bool
  mayBeNone : Bool

/-- A field may be missing where its column may hold null, and is an array if it or its shape is. -/
def Field.slot (f : Field) : Slot where
  name := f.name
  isArray := f.isArray || f.typeName = Scalar.json.name && f.shape.any Shape.isArray
  mayMiss := !f.isNotNull
  mayBeNone := false

/-- A key may be missing if it is optional, and may be none then. -/
def ShapeEntry.slot (e : ShapeEntry) : Slot where
  name := e.name
  isArray := e.isArray
  mayMiss := e.isOptional
  mayBeNone := true

/-- The type of a slot for values of a class: in one list for an array, and with one mark around it
where it may be missing. -/
def Slot.type (slot : Slot) (className : String) : EntryType :=
  let value : EntryType := if slot.isArray then .listOf (.named className) else .named className
  if slot.mayMiss then .notRequired (if slot.mayBeNone then .orNone value else value) else value

/-- The slots of a site, in the order of its fields or keys. -/
def Site.slots : Site → List Slot
  | .model m => m.fields.map Field.slot
  | .shape _ t => t.entries.map ShapeEntry.slot

/-- The class of the values of a field. -/
def Field.valueClass (s : Schema) (owner : String) (f : Field) : String :=
  if f.typeName = Scalar.json.name then
    if f.shape.isSome then shapeName owner f.name else "dict[str, Any]"
  else (s.typeClass? f.typeName).getD "Any"

/-- The class of the values of a key. -/
def ShapeEntry.valueClass (owner : String) (e : ShapeEntry) : String :=
  if e.shape.isSome then nestedName owner e.name
  else (leafTypes.lookup (lower e.typeName)).getD "Any"

theorem Field.entryType_eq (s : Schema) (owner : String) (f : Field) :
    f.entryType s owner = f.slot.type (f.valueClass s owner) := by
  unfold Field.entryType Field.valueType Field.valueClass Slot.type Field.slot EntryType.listIf
  by_cases hjson : f.typeName = Scalar.json.name
  · cases f.shape <;> cases f.isNotNull <;> simp [hjson, Bool.or_comm]
  · cases f.isNotNull <;> simp [hjson]

theorem ShapeEntry.entryType_eq (owner : String) (e : ShapeEntry) :
    e.entryType owner = e.slot.type (e.valueClass owner) := by
  unfold ShapeEntry.entryType ShapeEntry.valueClass Slot.type ShapeEntry.slot EntryType.listIf
  cases e.shape <;> cases e.isOptional <;> simp

/-! ### Classes -/

/-- The types of the language that a block may name. -/
def builtinTypes : List String := ["int", "float", "str", "bool", "Any", "dict[str, Any]"]

namespace Schema

variable {s : Schema}

/-- The class of the values of a slot, by what stands inside it: the class of its shape, or else a
type of the language or the class of a model. -/
def Names (s : Schema) (inside : Option Site) (name : String) : Prop :=
  match inside with
  | some x => name = x.className
  | none => name ∈ builtinTypes ∨ ∃ m ∈ s.models, name = className m.name

/-- The class of a type is one of the language or of a model. -/
theorem names_typeClass (typeName : String) :
    s.Names none ((s.typeClass? typeName).getD "Any") := by
  have hscalars : ∀ t ∈ "Any" :: scalarTypes.map Prod.snd, t ∈ builtinTypes := by decide
  unfold typeClass?
  split
  next name hlookup =>
      have hname := hscalars _ (getD_lookup_mem scalarTypes typeName)
      rw [hlookup] at hname
      exact .inl hname
  next =>
      split
      next hmodel =>
          obtain ⟨m, hm, hname⟩ := List.mem_map.mp (List.contains_iff_mem.mp hmodel)
          exact .inr ⟨m, hm, congrArg className hname.symm⟩
      next => exact .inl (by decide)

/-- The class of a field's values is that of its shape, or else one of the language or of a model.
-/
theorem names_field (owner : String) (f : Field) :
    s.Names (f.site? owner []) (f.valueClass s owner) := by
  unfold Field.site? Field.valueClass
  split
  · cases f.shape with
    | none => exact .inl (by simp [builtinTypes])
    | some t => rfl
  · exact names_typeClass f.typeName

theorem names_entry (owner : String) (e : ShapeEntry) :
    s.Names (e.shape.map (.shape (nestedName owner e.name))) (e.valueClass owner) := by
  have hleaves : ∀ t ∈ "Any" :: leafTypes.map Prod.snd, t ∈ builtinTypes := by decide
  unfold ShapeEntry.valueClass
  cases e.shape with
  | none => exact .inl (hleaves _ (getD_lookup_mem leafTypes _))
  | some u => rfl

end Schema

/-! ### What a block declares -/

/-- A block declares what stands at an address: it has the name of its class, and for each slot one
entry, in their order, with the key and the type of the slot. -/
def Schema.Declares (s : Schema) (address : List Nat) (b : TypeBlock) : Prop :=
  ∃ x, s.site? address = some x ∧ b.name = x.className ∧ b.entries.length = x.slots.length ∧
    ∀ k slot, x.slots[k]? = some slot → ∃ name,
      b.entries[k]? = some (slot.name, slot.type name) ∧ s.Names (s.site? (address ++ [k])) name

/-- What stands in a slot has an entry for it. -/
theorem Site.exists_entry (s : Schema) (x : Site) {k : Nat} {slot : Slot}
    (h : x.slots[k]? = some slot) : ∃ name,
      (x.block s).entries[k]? = some (slot.name, slot.type name) ∧ s.Names (x.inner? k) name := by
  cases x with
  | model m =>
      obtain ⟨f, hf, rfl⟩ := Option.map_eq_some_iff.mp (List.getElem?_map ▸ h)
      refine ⟨f.valueClass s (Schemata.className m.name), ?_, ?_⟩
      · simp only [Site.block, Schema.ownBlock, List.getElem?_map, hf, Option.map_some,
          Field.entryType_eq]
        rfl
      · rw [inner?, hf, Option.bind_some]
        exact Schema.names_field _ f
  | shape name t =>
      obtain ⟨e, he, rfl⟩ := Option.map_eq_some_iff.mp (List.getElem?_map ▸ h)
      refine ⟨e.valueClass name, ?_, ?_⟩
      · simp only [Site.block, Shape.block, List.getElem?_map, he, Option.map_some,
          ShapeEntry.entryType_eq]
        rfl
      · rw [inner?, he, Option.bind_some]
        exact Schema.names_entry name e

/-- The block of what stands at an address declares it. -/
theorem Site.declares_block {s : Schema} {address : List Nat} {x : Site}
    (h : s.site? address = some x) : s.Declares address (x.block s) := by
  refine ⟨x, h, ?_, ?_, fun k slot hslot => ?_⟩
  · cases x <;> rfl
  · cases x <;> simp [Site.block, Site.slots, Schema.ownBlock, Shape.block]
  · rw [Schema.site?_concat h]
    exact x.exists_entry s hslot

/-- The class that a type names. -/
def EntryType.base : EntryType → String
  | .named name => name
  | .listOf t | .orNone t | .notRequired t => t.base

theorem Slot.base_type (slot : Slot) (name : String) : (slot.type name).base = name := by
  unfold Slot.type
  cases slot.isArray <;> cases slot.mayMiss <;> cases slot.mayBeNone <;> rfl

/-- **Closed**: what a block names is a type of the language or another block. -/
theorem Schema.base_mem {s : Schema} {b : TypeBlock} (hb : b ∈ s.typeBlocks)
    {e : String × EntryType} (he : e ∈ b.entries) :
    e.2.base ∈ s.typeBlocks.map TypeBlock.name ∨ e.2.base ∈ builtinTypes := by
  obtain ⟨addresses, hlists⟩ := s.exists_lists
  have hname : ∀ {a : List Nat} {x : Site}, s.site? a = some x →
      x.className ∈ s.typeBlocks.map TypeBlock.name := fun {a x} hx => by
    obtain ⟨x', hx', hname, -⟩ := Site.declares_block hx
    rw [hx] at hx'
    cases hx'
    exact List.mem_map.mpr ⟨_, hlists.mem_row_iff.mpr ⟨a, x, hx, rfl⟩, hname⟩
  obtain ⟨a, x, hx, rfl⟩ := hlists.mem_row_iff.mp hb
  obtain ⟨x', hx', -, hlength, hentries⟩ := Site.declares_block hx
  obtain ⟨k, hk⟩ := List.mem_iff_getElem?.mp he
  obtain ⟨slot, hslot⟩ : ∃ slot, x'.slots[k]? = some slot :=
    ⟨_, List.getElem?_eq_getElem (hlength ▸ (List.getElem?_eq_some_iff.mp hk).1)⟩
  obtain ⟨name, hentry, hnames⟩ := hentries k slot hslot
  rw [hk] at hentry
  cases hentry
  rw [Slot.base_type]
  unfold Schema.Names at hnames
  split at hnames
  next y hy => exact .inl (hnames ▸ hname hy)
  next =>
      rcases hnames with hbuiltin | ⟨m, hm, rfl⟩
      · exact .inr hbuiltin
      · exact .inl (List.mem_map_of_mem (mem_ownBlock hm))

/-! ### Marks -/

/-- The text reads like a type with the mark of a key that may be missing. -/
def IsMarked (type : String) : Prop := ∃ inside, type = "NotRequired[" ++ inside ++ "]"

/-- A marked type begins with the mark and ends with its bracket. -/
theorem isMarked_iff {type : String} : IsMarked type ↔
    ("NotRequired[".toList.isPrefixOf type.toList && type.toList.getLast? == some ']') = true := by
  have hlast : "]".toList = [']'] := rfl
  rw [Bool.and_eq_true, List.isPrefixOf_iff_prefix, beq_iff_eq]
  constructor
  · rintro ⟨inside, rfl⟩
    rw [String.toList_append, String.toList_append, List.append_assoc, hlast]
    exact ⟨List.prefix_append _ _, by rw [← List.append_assoc, List.getLast?_concat]⟩
  · rintro ⟨⟨rest, hrest⟩, hbracket⟩
    rcases rest.eq_nil_or_concat' with rfl | ⟨inside, c, rfl⟩
    · rw [← hrest, List.append_nil] at hbracket
      exact absurd hbracket (by decide)
    · rw [← hrest, ← List.append_assoc, List.getLast?_concat] at hbracket
      cases hbracket
      refine ⟨String.ofList inside, String.toList_injective ?_⟩
      rw [← hrest, String.toList_append, String.toList_append, @String.toList_ofList inside, hlast,
        List.append_assoc]

instance (type : String) : Decidable (IsMarked type) := decidable_of_iff' _ isMarked_iff

/-- The reference to a marked type has its mark outside of the quotes. -/
theorem forwardReference_marked (inside : String) :
    forwardReference ("NotRequired[" ++ inside ++ "]") =
      "NotRequired[" ++ inQuotes inside ++ "]" := by
  have hmarked := isMarked_iff.mp ⟨inside, rfl⟩
  have hlast : "]".toList = [']'] := rfl
  unfold forwardReference
  dsimp only
  rw [if_pos hmarked, String.toList_append, String.toList_append, List.append_assoc, List.drop_left,
    hlast, List.dropLast_concat, String.ofList_toList]

theorem forwardReference_of_not_isMarked {type : String} (h : ¬ IsMarked type) :
    forwardReference type = inQuotes type := by
  unfold forwardReference
  dsimp only
  rw [if_neg (mt isMarked_iff.mpr h)]

/-- A type as a string, with the mark of a key that may be missing outside of the quotes. -/
def EntryType.reference : EntryType → String
  | .notRequired value => "NotRequired[" ++ inQuotes value.text ++ "]"
  | type => inQuotes type.text

/-- The type is nothing but a class whose name reads like a marked type. -/
def EntryType.IsMisread (t : EntryType) : Prop := ∃ name, t = .named name ∧ IsMarked name

instance (t : EntryType) : Decidable t.IsMisread :=
  match t with
  | .named name =>
    decidable_of_iff (IsMarked name) ⟨fun h => ⟨name, rfl, h⟩, fun ⟨_, rfl, h⟩ => h⟩
  | .listOf _ | .orNone _ | .notRequired _ => isFalse nofun

theorem IsMarked.head?_eq {type : String} (h : IsMarked type) : type.toList.head? = some 'N' := by
  obtain ⟨inside, rfl⟩ := h
  rw [String.toList_append, String.toList_append, List.append_assoc]
  rfl

theorem IsMarked.getLast?_eq {type : String} (h : IsMarked type) :
    type.toList.getLast? = some ']' := by
  rw [isMarked_iff, Bool.and_eq_true, beq_iff_eq] at h
  exact h.2

theorem head?_inQuotes (s : String) : (inQuotes s).toList.head? = some '"' := by
  unfold inQuotes
  rw [String.toList_append, String.toList_append, List.append_assoc]
  rfl

namespace EntryType

/-- A type other than a marked one is read as it is, unless it is misread. -/
theorem forwardReference_text_iff {t : EntryType} :
    forwardReference t.text = t.reference ↔ ¬ t.IsMisread := by
  cases t with
  | named name =>
      by_cases hname : IsMarked name
      · refine iff_of_false ?_ (not_not.mpr ⟨name, rfl, hname⟩)
        obtain ⟨inside, rfl⟩ := hname
        intro heq
        have hmarked : IsMarked (inQuotes ("NotRequired[" ++ inside ++ "]")) :=
          ⟨inQuotes inside, heq.symm.trans (forwardReference_marked inside)⟩
        have hhead := hmarked.head?_eq
        rw [head?_inQuotes] at hhead
        cases hhead
      · refine iff_of_true (forwardReference_of_not_isMarked hname) ?_
        rintro ⟨name', heq, hname'⟩
        cases heq
        exact hname hname'
  | listOf element =>
      refine iff_of_true (forwardReference_of_not_isMarked fun h => ?_) nofun
      have hhead := h.head?_eq
      simp [text] at hhead
  | orNone value =>
      refine iff_of_true (forwardReference_of_not_isMarked fun h => ?_) nofun
      have hlast := h.getLast?_eq
      simp [text] at hlast
  | notRequired value => exact iff_of_true (forwardReference_marked value.text) nofun

/-- A reference is as long as it should be, misread or not. -/
theorem length_forwardReference_text (t : EntryType) :
    (forwardReference t.text).length = t.reference.length := by
  by_cases h : t.IsMisread
  · obtain ⟨name, rfl, inside, rfl⟩ := h
    rw [text, forwardReference_marked]
    unfold reference inQuotes
    simp only [text, String.length_append]
    omega
  · rw [forwardReference_text_iff.mpr h]

end EntryType

/-! ### Texts -/

/-- Texts that begin with texts of one length are the same exactly if both parts are. -/
theorem append_inj_of_length {a b c d : String} (hlength : a.length = c.length) :
    a ++ b = c ++ d ↔ a = c ∧ b = d := by
  refine ⟨fun h => ?_, fun ⟨hac, hbd⟩ => hac ▸ hbd ▸ rfl⟩
  have h := congrArg String.toList h
  rw [String.toList_append, String.toList_append] at h
  have hchars : a.toList.length = c.toList.length := by
    rw [String.length_toList, String.length_toList, hlength]
  obtain ⟨hac, hbd⟩ := List.append_inj h hchars
  exact ⟨String.toList_inj.mp hac, String.toList_inj.mp hbd⟩

/-- Texts of the same lengths are of one length when joined, and can then be told apart again. -/
theorem intercalate_of_length {sep : String} {xs ys : List String}
    (hlength : xs.map String.length = ys.map String.length) :
    (sep.intercalate xs).length = (sep.intercalate ys).length ∧
      (sep.intercalate xs = sep.intercalate ys ↔ xs = ys) := by
  induction xs generalizing ys with
  | nil =>
      obtain rfl := List.map_eq_nil_iff.mp hlength.symm
      exact ⟨rfl, iff_of_true rfl rfl⟩
  | cons x xs ih =>
      cases ys with
      | nil => cases hlength
      | cons y ys =>
          obtain ⟨hxy, hlength⟩ := List.cons.inj hlength
          obtain ⟨hjoined, hiff⟩ := ih hlength
          cases xs with
          | nil =>
              obtain rfl := List.map_eq_nil_iff.mp hlength.symm
              simpa using hxy
          | cons x' xs =>
              cases ys with
              | nil => cases hlength
              | cons y' ys =>
                  rw [String.intercalate_cons_cons, String.intercalate_cons_cons]
                  constructor
                  · rw [String.length_append, String.length_append, String.length_append,
                      String.length_append, hxy, hjoined]
                  · rw [String.append_assoc, String.append_assoc, append_inj_of_length hxy,
                      append_inj_of_length rfl, hiff]
                    simp only [true_and, List.cons.injEq]

namespace TypeBlock

/-- The declaration of a block: a class, or a call if not all keys are names, with the types as
strings and the marks of keys that may be missing outside of them. -/
def declaration (b : TypeBlock) : String :=
  if ∀ e ∈ b.entries, isPlainKey e.1 = true then
    "\n".intercalate (("class " ++ b.name ++ "(TypedDict):") ::
      if b.entries = [] then ["    pass"]
      else b.entries.map fun (key, type) => "    " ++ key ++ ": " ++ type.text)
  else
    b.name ++ " = TypedDict(" ++ inQuotes b.name ++ ", \x7b" ++
      ", ".intercalate (b.entries.map fun (key, type) => inQuotes key ++ ": " ++ type.reference) ++
      "\x7d)"

/-- The block is a call and names a class that reads like a marked type. -/
def IsMisread (b : TypeBlock) : Prop :=
  (∃ e ∈ b.entries, isPlainKey e.1 = false) ∧ ∃ e ∈ b.entries, e.2.IsMisread

instance (b : TypeBlock) : Decidable b.IsMisread := inferInstanceAs (Decidable (_ ∧ _))

/-- A block has the length of its declaration, and is its declaration unless it is misread. -/
theorem text_eq_declaration_iff (b : TypeBlock) :
    b.text.length = b.declaration.length ∧ (b.text = b.declaration ↔ ¬ b.IsMisread) := by
  by_cases hplain : ∀ e ∈ b.entries, isPlainKey e.1 = true
  · have htext : b.text = b.declaration := by
      unfold text declaration
      rw [if_pos hplain, if_pos (List.all_eq_true.mpr hplain)]
      simp only [List.isEmpty_iff]
    refine ⟨congrArg _ htext, iff_of_true htext ?_⟩
    rintro ⟨⟨e, he, hkey⟩, -⟩
    rw [hplain e he] at hkey
    cases hkey
  · have hkey : ∃ e ∈ b.entries, isPlainKey e.1 = false := by simpa using hplain
    unfold text declaration IsMisread
    rw [if_neg hplain, if_neg (mt List.all_eq_true.mp hplain)]
    dsimp only
    have hlength : (b.entries.map fun (key, type) =>
          inQuotes key ++ ": " ++ forwardReference type.text).map String.length =
        (b.entries.map fun (key, type) => inQuotes key ++ ": " ++ type.reference).map
          String.length := by
      rw [List.map_map, List.map_map]
      refine List.map_congr_left fun e _ => ?_
      simp only [Function.comp_apply, String.length_append,
        EntryType.length_forwardReference_text]
    obtain ⟨hjoined, hiff⟩ := @intercalate_of_length ", " _ _ hlength
    constructor
    · simp only [String.length_append, hjoined]
    · rw [append_inj_of_length (by simp only [String.length_append, hjoined]),
        append_inj_of_length rfl, hiff, List.map_inj_left]
      have hentry : ∀ e : String × EntryType,
          inQuotes e.1 ++ ": " ++ forwardReference e.2.text =
            inQuotes e.1 ++ ": " ++ e.2.reference ↔ ¬ e.2.IsMisread := fun e => by
        rw [append_inj_of_length rfl, EntryType.forwardReference_text_iff]
        simp only [true_and]
      constructor
      · rintro ⟨⟨-, hall⟩, -⟩ ⟨-, e, he, hmisread⟩
        exact (hentry e).mp (hall e he) hmisread
      · intro hnone
        exact ⟨⟨rfl, fun e he => (hentry e).mpr fun h => hnone ⟨hkey, e, he, h⟩⟩, rfl⟩

end TypeBlock

/-- The module with its blocks as they are declared. -/
def Schema.declaredModule (s : Schema) : String :=
  "\n".intercalate
      (moduleHeader ++ s.typeBlocks.flatMap (fun b => ["", b.declaration, ""]) ++ moduleIndex s) ++
    "\n"

/-- **The text of a module** is the declared one exactly if no block is misread. -/
theorem Schema.typeModuleText_eq_iff (s : Schema) :
    s.typeModuleText = s.declaredModule ↔ ∀ b ∈ s.typeBlocks, ¬ b.IsMisread := by
  have hlength : (s.typeBlocks.flatMap fun b => ["", b.text, ""]).map String.length =
      (s.typeBlocks.flatMap fun b => ["", b.declaration, ""]).map String.length := by
    rw [List.map_flatMap, List.map_flatMap]
    refine List.flatMap_congr fun b _ => ?_
    simp only [List.map_cons, List.map_nil, b.text_eq_declaration_iff.1]
  have hblocks : (s.typeBlocks.flatMap fun b => ["", b.text, ""]) =
      (s.typeBlocks.flatMap fun b => ["", b.declaration, ""]) ↔
        ∀ b ∈ s.typeBlocks, b.text = b.declaration := by
    induction s.typeBlocks with
    | nil => simp
    | cons b bs ih => simp [ih]
  obtain ⟨hjoined, hiff⟩ := @intercalate_of_length "\n"
    (moduleHeader ++ s.typeBlocks.flatMap (fun b => ["", b.text, ""]) ++ moduleIndex s)
    (moduleHeader ++ s.typeBlocks.flatMap (fun b => ["", b.declaration, ""]) ++ moduleIndex s)
    (by simp only [List.map_append, hlength])
  unfold typeModuleText declaredModule
  rw [append_inj_of_length hjoined, hiff, List.append_left_inj, List.append_right_inj, hblocks]
  simp only [and_true, TypeBlock.text_eq_declaration_iff]

/-- **A module declares its schema.**  There is a block for every address of the schema, in the
order of the addresses, a shape before what it is in, and no other; it declares what stands there,
and every class that it names is a block of the module or a type of the language.  The module is
always written, and is written as it is declared unless a call has an entry whose type is nothing
but a class that reads like the type of a key that may be missing. -/
theorem Schema.typeModule_declares (s : Schema) :
    (∃ addresses : List (List Nat), addresses.Pairwise Earlier ∧
      (∀ a, a ∈ addresses ↔ (s.site? a).isSome) ∧
      (∀ a k b, a ∈ addresses → a ++ k :: b ∈ addresses →
        addresses.idxOf (a ++ k :: b) < addresses.idxOf a) ∧
      List.Forall₂ s.Declares addresses s.typeBlocks) ∧
    (∀ b ∈ s.typeBlocks, ∀ e ∈ b.entries,
      e.2.base ∈ s.typeBlocks.map TypeBlock.name ∨ e.2.base ∈ builtinTypes) ∧
    (∀ ε : Type, (s.typeModule : Journal ε String).outcome = .ok s.typeModuleText) ∧
    (s.typeModuleText = s.declaredModule ↔ ∀ b ∈ s.typeBlocks, ¬ b.IsMisread) := by
  obtain ⟨addresses, hlists⟩ := s.exists_lists
  refine ⟨⟨addresses, hlists.ordered, fun a => hlists.mem_iff,
      fun a k b ha hb => hlists.idxOf_lt ha hb, ?_⟩,
    fun b hb e he => base_mem hb he, fun _ => rfl, s.typeModuleText_eq_iff⟩
  refine hlists.forall₂.imp fun a b hab => ?_
  obtain ⟨x, hx, rfl⟩ := hab
  exact Site.declares_block hx

/-- Flights with legs that have rows of seats, and the airports that they start from. -/
def flights : Schema :=
  ⟨[{ name := "flight"
      fields :=
        [{ name := "id", typeName := "int", isPrimaryKey := true },
         { name := "from", typeName := "airport", isRequired := true },
         { name := "legs", typeName := "json"
           shape := some ⟨"", true, [⟨"seat", "object", true, true,
             some ⟨"", true, [⟨"row", "int", false, false, none⟩], .nowhere⟩⟩], .nowhere⟩ }] },
    { name := "airport"
      fields := [{ name := "code", typeName := "string", isRequired := true }] }]⟩

/-- The seats come first, the shape they are in next, and then the models; the keys of a flight are
strings, as one of them is a keyword. -/
theorem flights_declared : flights.typeModuleText = flights.declaredModule ∧
    flights.typeBlocks.map TypeBlock.declaration =
      ["class FlightLegsShapeSeat(TypedDict):\n    row: int",
       "class FlightLegsShape(TypedDict):\n    seat: NotRequired[list[FlightLegsShapeSeat] | None]",
       "Flight = TypedDict(\"Flight\", \x7b\"id\": \"int\", \"from\": \"Airport\", " ++
         "\"legs\": NotRequired[\"list[FlightLegsShape]\"]\x7d)",
       "class Airport(TypedDict):\n    code: str"] := by
  obtain ⟨-, -, -, hiff⟩ := flights.typeModule_declares
  exact ⟨hiff.mpr (by decide +kernel), by decide +kernel⟩

/-- A model whose class reads like a marked type, and one that has it under a key with a hyphen. -/
def bracketed : Schema :=
  ⟨[{ name := "NotRequired[x]" },
    { name := "m"
      fields := [{ name := "a-b", typeName := "NotRequired[x]", isRequired := true }] }]⟩

/-- **A required key that may be missing**: part of the name of its class is taken for the mark. -/
theorem bracketed_misread : bracketed.modelNames.Nodup ∧
    bracketed.typeModuleText ≠ bracketed.declaredModule ∧
    bracketed.typeBlocks.map TypeBlock.declaration =
      ["class NotRequired[x](TypedDict):\n    pass",
       "M = TypedDict(\"M\", \x7b\"a-b\": \"NotRequired[x]\"\x7d)"] ∧
    bracketed.typeBlocks.map TypeBlock.text =
      ["class NotRequired[x](TypedDict):\n    pass",
       "M = TypedDict(\"M\", \x7b\"a-b\": NotRequired[\"x\"]\x7d)"] := by
  refine ⟨by decide, fun h => ?_, by decide +kernel, by decide +kernel⟩
  exact absurd (bracketed.typeModuleText_eq_iff.mp h) (by decide +kernel)

end Schemata
