import Schemata.Proofs.Schema.Grammar
import Schemata.Proofs.Shape.Writing
import Schemata.Proofs.Token.Words

/-!
# Proofs — schemas — how a schema is spelled

The words that a schema can be written with.  A relation of this module holds of a row of words and
of what the row says (`SpellsModel` and below); it leaves open what the language leaves open: the
order of decorators, the place of an array mark, zeros before a number, and how the block of a
`json` field is laid out.

* `Schema.IsExpressible` — what the language can express.
* `Schema.exists_isSpelled` — every such schema can be spelled.
* `Spelling.steady_of_isSpelled` — the words are of the language where they stand, so the scanner
  finds them again.
-/

namespace Schemata

open Text

/-! ### Schemas but for places and texts -/

/-- The field without its place, and without the texts and places in its shape. -/
def Field.content (f : Field) : Field :=
  { f with shape := Shape.contentOption f.shape, position := .nowhere }

def Model.content (m : Model) : Model :=
  { m with fields := m.fields.map Field.content, position := .nowhere }

def Schema.content (s : Schema) : Schema := ⟨s.models.map Model.content⟩

/-! ### What can be expressed -/

namespace Lexeme

/-- A word begins like one and goes on like one. -/
theorem isWord_iff {text : String} :
    IsWord text ↔ text.toList.head?.any isWordStart = true ∧
      text.toList.tail.all isWordPart = true := by
  unfold IsWord
  cases text.toList with
  | nil => simp
  | cons c cs => simp

instance (text : String) : Decidable (IsWord text) := decidable_of_iff _ isWord_iff.symm

/-- A word without a meaning of its own. -/
def IsIdentifier (text : String) : Prop := IsWord text ∧ TokenKind.ofWord text = .identifier

/-- A word that may name a field. -/
def IsName (text : String) : Prop := IsWord text ∧ (TokenKind.ofWord text).isName = true

instance (text : String) : Decidable (IsIdentifier text) := inferInstanceAs (Decidable (_ ∧ _))

instance (text : String) : Decidable (IsName text) := inferInstanceAs (Decidable (_ ∧ _))

theorem IsIdentifier.isName {text : String} (h : IsIdentifier text) : IsName text :=
  ⟨h.1, by rw [h.2]; rfl⟩

/-- The number of double precision that decimal digits with a point between them stand for. -/
def decimal (ws ps : List Char) : Binary64 :=
  .ofDecimal false (Nat.ofDigitChars 10 (ws ++ ps) 0) (-(ps.length : Int))

end Lexeme

open Lexeme

/-- A truth value, an integer that is not negative, a number that digits with a point between them
stand for, or a text that needs no escape. -/
def Literal.IsExpressible : Literal → Prop
  | .bool _ => True
  | .int n => 0 ≤ n
  | .float x => ∃ ws ps, ws ≠ [] ∧ IsDigits ws ∧ ps ≠ [] ∧ IsDigits ps ∧ x = decimal ws ps
  | .text s => ∀ c ∈ s.toList, c ≠ '"' ∧ c ≠ '\\'

/-- A field that the language can express. -/
structure Field.IsExpressible (f : Field) : Prop where
  named : IsName f.name
  typed : f.isColumn = true ∨ IsIdentifier f.typeName
  keyed : ∀ r ∈ f.relation, ∀ key ∈ r.foreignKey, IsName key
  literal : ∀ v, f.default = some (.literal v) → v.IsExpressible
  shaped : f.shape.isSome = true ↔ f.typeName = "json"
  shape : ∀ s ∈ f.shape, s.IsExpressible ∧ (s.isArray = true → f.isArray = true)

/-- The type of a field is spelled as a name is. -/
theorem Field.IsExpressible.isName_typeName {f : Field} (h : f.IsExpressible) :
    IsName f.typeName := by
  rcases h.typed with hcolumn | hmodel
  · obtain ⟨s, hs⟩ := Option.isSome_iff_exists.mp hcolumn
    have hname : s.name = f.typeName := eq_of_beq (List.find?_some hs :)
    rw [← hname]
    cases s <;> decide
  · exact hmodel.isName

/-- A model that the language can express. -/
structure Model.IsExpressible (m : Model) : Prop where
  named : IsIdentifier m.name
  fields : ∀ f ∈ m.fields, f.IsExpressible
  uniques : ∀ names ∈ m.uniques, names ≠ [] ∧ ∀ name ∈ names, IsName name

/-- A schema that the language can express. -/
def Schema.IsExpressible (s : Schema) : Prop := ∀ m ∈ s.models, m.IsExpressible

/-! ### Spelling -/

/-- What is said of a field, in one order. -/
def Field.decorators (f : Field) : List Decorator :=
  (if f.isPrimaryKey then [Decorator.primaryKey] else []) ++
    (if f.isUnique then [Decorator.unique] else []) ++
    (if f.isRequired then [Decorator.required] else []) ++ f.default.toList.map .default ++
    f.relation.toList.map .relation

namespace Spelling

/-- A word of letters. -/
def name (text : String) : Token.Word := ⟨.ofWord text, text⟩

def comma : Token.Word := ⟨.comma, ","⟩

def atSign : Token.Word := ⟨.atSign, "@"⟩

/-- Words between an opening one and a closing one. -/
def enclosed (opening closing : Token.Word) (ws : List Token.Word) : List Token.Word :=
  opening :: (ws ++ [closing])

def parens : List Token.Word → List Token.Word :=
  enclosed ⟨.openParen, "("⟩ ⟨.closeParen, ")"⟩

def brackets : List Token.Word → List Token.Word :=
  enclosed ⟨.openBracket, "["⟩ ⟨.closeBracket, "]"⟩

def braces : List Token.Word → List Token.Word :=
  enclosed ⟨.openBrace, "\x7b"⟩ ⟨.closeBrace, "\x7d"⟩

/-- An array mark, or none. -/
def mark (isArray : Bool) : List Token.Word := if isArray then brackets [] else []

/-- Names with commas between them. -/
def names (ns : List String) : List Token.Word := (ns.map name).intersperse comma

/-- A row of parts, one after the other. -/
inductive SpellsRow {α : Type} (Spells : List Token.Word → α → Prop) :
    List Token.Word → List α → Prop
  | nil : SpellsRow Spells [] []
  | cons {ws vs : List Token.Word} {a : α} {as : List α} (head : Spells ws a)
      (tail : SpellsRow Spells vs as) : SpellsRow Spells (ws ++ vs) (a :: as)

/-- A value that is not called. -/
inductive SpellsLiteral : Token.Word → Literal → Prop
  | true : SpellsLiteral (name "true") (.bool true)
  | false : SpellsLiteral (name "false") (.bool false)
  | int {ds : List Char} {n : Int} (some : ds ≠ []) (digits : IsDigits ds)
      (value : n = Nat.ofDigitChars 10 ds 0) :
      SpellsLiteral ⟨.numberLiteral, String.ofList ds⟩ (.int n)
  | float {ws ps : List Char} (some : ws ≠ []) (digits : IsDigits ws) (some' : ps ≠ [])
      (digits' : IsDigits ps) :
      SpellsLiteral ⟨.numberLiteral, String.ofList (ws ++ '.' :: ps)⟩ (.float (decimal ws ps))
  | text {s : String} (plain : ∀ c ∈ s.toList, c ≠ '"' ∧ c ≠ '\\') :
      SpellsLiteral ⟨.stringLiteral, s⟩ (.text s)

/-- The value of a default. -/
inductive SpellsDefault : List Token.Word → Default → Prop
  | literal {w : Token.Word} {v : Literal} (spelled : SpellsLiteral w v) :
      SpellsDefault [w] (.literal v)
  | call {g : Generator} : SpellsDefault (name g.name :: parens []) (.call g)

/-- A decorator after its sign. -/
inductive SpellsSaying : List Token.Word → Decorator → Prop
  | primaryKey : SpellsSaying [name "primary_key"] .primaryKey
  | unique : SpellsSaying [name "unique"] .unique
  | required : SpellsSaying [name "required"] .required
  | default {ws : List Token.Word} {d : Default} (value : SpellsDefault ws d) :
      SpellsSaying (name "default" :: parens ws) (.default d)
  | relation {k : RelationKind} : SpellsSaying [name k.name] (.relation ⟨k, none⟩)
  | keyedRelation {k : RelationKind} {key : String} :
      SpellsSaying (name k.name :: parens [name key]) (.relation ⟨k, some key⟩)

/-- A decorator. -/
inductive SpellsDecorator : List Token.Word → Decorator → Prop
  | mk {ws : List Token.Word} {d : Decorator} (saying : SpellsSaying ws d) :
      SpellsDecorator (atSign :: ws) d

/-- The type of a field.  An array mark stands after it; after `json` it may also stand before the
block, and then it is a mark of the shape as well. -/
inductive SpellsType : List Token.Word → Field → Prop
  | plain {f : Field} (unshaped : f.shape = none) :
      SpellsType (name f.typeName :: mark f.isArray) f
  | json {f : Field} {s : Shape} {raw : String} {after : Bool} (shaped : f.shape = some s)
      (text : Shape.IsText raw s) (marked : f.isArray = (s.isArray || after)) :
      SpellsType (name f.typeName :: (mark s.isArray ++ ⟨.rawObject, raw⟩ :: mark after)) f

/-- A field: its name, its type and its decorators. -/
inductive SpellsField : List Token.Word → Field → Prop
  | mk {ws vs : List Token.Word} {f : Field} {ds : List Decorator} (typed : SpellsType ws f)
      (order : ds.Perm f.decorators) (said : SpellsRow SpellsDecorator vs ds) :
      SpellsField (name f.name :: (ws ++ vs)) f

/-- A member of a model. -/
inductive SpellsMember : List Token.Word → Reading.Member → Prop
  | field {ws : List Token.Word} {f : Field} (spelled : SpellsField ws f) :
      SpellsMember ws (.field f)
  | unique {ns : List String} :
      SpellsMember (⟨.composite, "@@unique"⟩ :: parens (brackets (names ns))) (.unique ns)

/-- A model: the fields in their order and the blocks in theirs, one among the other. -/
inductive SpellsModel : List Token.Word → Model → Prop
  | mk {ws : List Token.Word} {m : Model} {ms : List Reading.Member}
      (members : SpellsRow SpellsMember ws ms)
      (fields : ms.filterMap Reading.Member.field? = m.fields)
      (uniques : ms.filterMap Reading.Member.unique? = m.uniques) :
      SpellsModel (name "model" :: name m.name :: braces ws) m

end Spelling

/-- The words spell the schema. -/
def Schema.IsSpelled (ws : List Token.Word) (s : Schema) : Prop :=
  Spelling.SpellsRow Spelling.SpellsModel ws s.models

namespace Spelling

/-- A single thing, as a row of one. -/
theorem SpellsRow.singleton {α : Type} {Spells : List Token.Word → α → Prop}
    {ws : List Token.Word} {a : α} (h : Spells ws a) : SpellsRow Spells ws [a] := by
  rw [← List.append_nil ws]
  exact .cons h .nil

/-! ### Every schema can be spelled -/

/-- A row can be spelled if each of its things can be. -/
theorem exists_spellsRow {α : Type} {Spells : List Token.Word → α → Prop} {as : List α}
    (h : ∀ a ∈ as, ∃ ws, Spells ws a) : ∃ ws, SpellsRow Spells ws as := by
  induction as with
  | nil => exact ⟨[], .nil⟩
  | cons a as ih =>
      obtain ⟨⟨ws, hws⟩, has⟩ := List.forall_mem_cons.mp h
      obtain ⟨vs, hvs⟩ := ih has
      exact ⟨ws ++ vs, .cons hws hvs⟩

/-- Every literal that can be expressed is spelled by a word. -/
theorem exists_spellsLiteral {v : Literal} (h : v.IsExpressible) : ∃ w, SpellsLiteral w v := by
  cases v with
  | bool b =>
      cases b with
      | true => exact ⟨_, .true⟩
      | false => exact ⟨_, .false⟩
  | int n =>
      obtain ⟨m, rfl⟩ := Int.eq_ofNat_of_zero_le h
      exact ⟨_, .int Nat.toDigits_ne_nil (isDigits_toDigits m)
        (by rw [Nat.ofDigitChars_ten_toDigits])⟩
  | float x =>
      obtain ⟨ws, ps, some, digits, some', digits', rfl⟩ := h
      exact ⟨_, .float some digits some' digits'⟩
  | text s => exact ⟨_, .text h⟩

/-- Every decorator of a field that can be expressed is spelled by some words. -/
theorem exists_spellsDecorator {f : Field} (h : f.IsExpressible) :
    ∀ d ∈ f.decorators, ∃ ws, SpellsDecorator ws d := by
  intro d hd
  suffices hsaying : ∃ ws, SpellsSaying ws d from
    hsaying.elim fun ws hws => ⟨atSign :: ws, .mk hws⟩
  cases d with
  | primaryKey => exact ⟨_, .primaryKey⟩
  | unique => exact ⟨_, .unique⟩
  | required => exact ⟨_, .required⟩
  | default d =>
      cases d with
      | call g => exact ⟨_, .default .call⟩
      | literal v =>
          have hdefault : f.default = some (.literal v) := by simpa [Field.decorators] using hd
          obtain ⟨w, hw⟩ := exists_spellsLiteral (h.literal v hdefault)
          exact ⟨_, .default (.literal hw)⟩
  | relation r =>
      obtain ⟨k, _ | key⟩ := r
      · exact ⟨_, .relation⟩
      · exact ⟨_, .keyedRelation⟩

/-- The type of a field that can be expressed is spelled by some words, with its array mark. -/
theorem exists_spellsType {f : Field} (h : f.IsExpressible) : ∃ ws, SpellsType ws f := by
  cases hshape : f.shape with
  | none => exact ⟨_, .plain hshape⟩
  | some s =>
      obtain ⟨hplain, harray⟩ := h.shape s hshape
      obtain ⟨raw, hraw⟩ := Shape.exists_isText hplain
      refine ⟨_, @SpellsType.json f s raw f.isArray hshape hraw ?_⟩
      cases hs : s.isArray with
      | true => rw [harray hs]; rfl
      | false => rfl

theorem exists_spellsField {f : Field} (h : f.IsExpressible) : ∃ ws, SpellsField ws f := by
  obtain ⟨ws, hws⟩ := exists_spellsType h
  obtain ⟨vs, hvs⟩ := exists_spellsRow (exists_spellsDecorator h)
  exact ⟨_, .mk hws (List.Perm.refl _) hvs⟩

/-- Every model that can be expressed is spelled by some words. -/
theorem exists_spellsModel {m : Model} (h : m.IsExpressible) : ∃ ws, SpellsModel ws m := by
  have hmembers : ∀ x ∈ m.fields.map Reading.Member.field ++ m.uniques.map .unique,
      ∃ ws, SpellsMember ws x := by
    intro x hx
    rcases List.mem_append.mp hx with hx | hx
    · obtain ⟨f, hf, rfl⟩ := List.mem_map.mp hx
      obtain ⟨ws, hws⟩ := exists_spellsField (h.fields f hf)
      exact ⟨ws, .field hws⟩
    · obtain ⟨ns, -, rfl⟩ := List.mem_map.mp hx
      exact ⟨_, .unique⟩
  obtain ⟨ws, hws⟩ := exists_spellsRow hmembers
  refine ⟨_, .mk hws ?_ ?_⟩
  · simp [List.filterMap_append, List.filterMap_map, Function.comp_def, Reading.Member.field?]
  · simp [List.filterMap_append, List.filterMap_map, Function.comp_def, Reading.Member.unique?]

end Spelling

/-- **Every schema that can be expressed** is spelled by some words. -/
theorem Schema.exists_isSpelled {s : Schema} (h : s.IsExpressible) : ∃ ws, s.IsSpelled ws :=
  Spelling.exists_spellsRow fun m hm => Spelling.exists_spellsModel (h m hm)

namespace Spelling

/-! ### The words are of the language -/

variable {armed : Bool} {ws vs : List Token.Word} {text : String}

/-- The words are of the language wherever they stand. -/
def Steady (ws : List Token.Word) : Prop := ∀ armed, Token.Word.Steady armed ws

theorem Steady.append (h : Steady ws) (h' : Steady vs) : Steady (ws ++ vs) := fun armed =>
  (h armed).append h'

theorem Steady.cons {w : Token.Word} (h : ∀ armed, w.Fits armed) (h' : Steady ws) :
    Steady (w :: ws) := fun armed => .cons (h armed) (h' _)

theorem steady_nil : Steady [] := fun _ => .nil

/-- Words of the language stay so between two words that fit anywhere. -/
theorem steady_enclosed {a b : Token.Word} (ha : ∀ armed, a.Fits armed) (h : Steady ws)
    (hb : ∀ armed, b.Fits armed) : Steady (enclosed a b ws) :=
  .cons ha (.append h (.cons hb steady_nil))

theorem steady_parens (h : Steady ws) : Steady (parens ws) :=
  steady_enclosed (fun _ => .sign (c := '(') rfl) h fun _ => .sign (c := ')') rfl

theorem steady_brackets (h : Steady ws) : Steady (brackets ws) :=
  steady_enclosed (fun _ => .sign (c := '[') rfl) h fun _ => .sign (c := ']') rfl

theorem steady_name (h : IsWord text) (h' : Steady ws) : Steady (name text :: ws) :=
  .cons (fun _ => .name h) h'

/-- A row is of the language if each of its things is. -/
theorem steady_spellsRow {α : Type} {Spells : List Token.Word → α → Prop} {as : List α}
    (h : SpellsRow Spells ws as) (hpart : ∀ a ∈ as, ∀ ws, Spells ws a → Steady ws) : Steady ws := by
  induction h with
  | nil => exact steady_nil
  | cons head _ ih =>
      obtain ⟨ha, has⟩ := List.forall_mem_cons.mp hpart
      exact .append (ha _ head) (ih has)

/-- A literal's word may stand anywhere, behind `json` too. -/
theorem fits_of_spellsLiteral {w : Token.Word} {v : Literal} (h : SpellsLiteral w v) :
    w.Fits armed := by
  cases h with
  | true => exact .name (by decide)
  | false => exact .name (by decide)
  | int some digits => exact .integer some digits
  | float some digits some' digits' => exact .decimal some digits some' digits'
  | text plain => exact .string plain

/-- What a decorator says is of the language, if its foreign key may be a name. -/
theorem steady_spellsSaying {d : Decorator} (h : SpellsSaying ws d)
    (hkey : ∀ k key, d = .relation ⟨k, some key⟩ → IsName key) : Steady ws := by
  have hrelation : ∀ k : RelationKind, IsWord k.name := fun k => by cases k <;> decide
  cases h with
  | primaryKey => exact steady_name (by decide) steady_nil
  | unique => exact steady_name (by decide) steady_nil
  | required => exact steady_name (by decide) steady_nil
  | default value =>
      refine steady_name (by decide) (steady_parens ?_)
      cases value with
      | literal spelled => exact .cons (fun _ => fits_of_spellsLiteral spelled) steady_nil
      | @call g =>
          have hg : IsWord g.name := by cases g <;> decide
          exact steady_name hg (steady_parens steady_nil)
  | relation => exact steady_name (hrelation _) steady_nil
  | @keyedRelation k key =>
      exact steady_name (hrelation _) (steady_parens (steady_name (hkey k key rfl).1 steady_nil))

theorem steady_mark (isArray : Bool) : Steady (mark isArray) := by
  cases isArray with
  | true => exact steady_brackets steady_nil
  | false => exact steady_nil

/-- The words of a type are of the language, with its array mark and its shape. -/
theorem steady_spellsType {f : Field} (h : SpellsType ws f) (hf : f.IsExpressible) : Steady ws := by
  cases h with
  | plain => exact steady_name hf.isName_typeName.1 (steady_mark _)
  | @json f s raw after shaped text =>
      intro armed
      have hjson : f.typeName = "json" := hf.shaped.mp (by rw [shaped]; rfl)
      obtain ⟨tail, hraw, hbalanced⟩ := Shape.blockTail_of_isText text (hf.shape s shaped).1
      have hblock : Token.Word.Steady true (⟨.rawObject, raw⟩ :: mark after) :=
        .cons (.rawObject hraw hbalanced rfl) (steady_mark after _)
      -- the word `json` arms the scanner, and a mark after it leaves it armed
      rw [hjson]
      refine .cons (.name (by decide)) ?_
      cases s.isArray with
      | true => exact .cons (.sign (c := '[') rfl) (.cons (.sign (c := ']') rfl) hblock)
      | false => exact hblock

/-- The words of a field are of the language. -/
theorem steady_spellsField {f : Field} (h : SpellsField ws f) (hf : f.IsExpressible) :
    Steady ws := by
  obtain ⟨typed, order, said⟩ := h
  refine steady_name hf.named.1 (.append (steady_spellsType typed hf) (steady_spellsRow said ?_))
  rintro d hd ws ⟨saying⟩
  refine .cons (fun _ => .atSign) (steady_spellsSaying saying fun k key heq => ?_)
  have hrelation : f.relation = some ⟨k, some key⟩ := by
    have hmem : d ∈ f.decorators := order.mem_iff.mp hd
    rw [heq] at hmem
    simpa [Field.decorators] using hmem
  exact hf.keyed _ hrelation key rfl

/-- Names with commas between them are of the language. -/
theorem steady_names {ns : List String} (h : ∀ n ∈ ns, IsName n) : Steady (names ns) := by
  unfold names
  induction ns with
  | nil => exact steady_nil
  | cons n ns ih =>
      obtain ⟨hn, hns⟩ := List.forall_mem_cons.mp h
      cases ns with
      | nil => exact steady_name hn.1 steady_nil
      | cons m ns =>
          exact steady_name hn.1 (.cons (fun _ => .sign (c := ',') rfl) (ih hns))

/-- The words of a model are of the language. -/
theorem steady_spellsModel {m : Model} (h : SpellsModel ws m) (hm : m.IsExpressible) :
    Steady ws := by
  obtain ⟨members, fields, uniques⟩ := h
  have hbody := steady_spellsRow members fun x hx ws hws => by
    cases hws with
    | field spelled =>
        refine steady_spellsField spelled (hm.fields _ ?_)
        rw [← fields]
        exact List.mem_filterMap.mpr ⟨_, hx, rfl⟩
    | @unique ns =>
        have hns : ns ∈ m.uniques := by
          rw [← uniques]
          exact List.mem_filterMap.mpr ⟨_, hx, rfl⟩
        exact .cons (fun _ => @Token.Word.Fits.composite _ "unique" (by decide))
          (steady_parens (steady_brackets (steady_names (hm.uniques ns hns).2)))
  -- the name of the model leaves the scanner unarmed, so the brace after it is a sign
  intro armed
  refine .cons (.name (by decide)) (.cons (.name hm.named.1) (.cons (.openBrace ?_) ?_))
  · have hkind : (name m.name).kind = .identifier := hm.named.2
    unfold Token.Word.arms
    rw [hkind]
  · exact (hbody.append (.cons (fun _ => .sign (c := '}') rfl) steady_nil)) _

/-- **The words** of a schema are of the language where they stand. -/
theorem steady_of_isSpelled {s : Schema} (h : s.IsSpelled ws) (hs : s.IsExpressible) : Steady ws :=
  steady_spellsRow h fun m hm _ hws => steady_spellsModel hws (hs m hm)

end Spelling

end Schemata
