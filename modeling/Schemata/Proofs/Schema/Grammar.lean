import Mathlib.Data.List.Nodup
import Schemata.Schema.Reading

/-!
# Proofs — schemas — the grammar

What tokens write, with no word about how they are read.  A relation of this module holds of a row
of tokens and of what the row writes:

* `WritesModel` — `model IDENTIFIER { member* }`;
* `WritesMember` — a field, or `@@unique ( [ NAME , … ] )`;
* `WritesField` — `NAME type ([ ])? decorator*`, with no two decorators of one key;
* `WritesType` — a scalar type, the name of a model, or `json ([ ])? BLOCK`, whose shape is right;
* `WritesDecorator` — `@` and one of the things that can be said of a field.

A schema is a row of models (`WritesRow WritesModel`).
-/

namespace Schemata

namespace Decorator

/-- What may stand only once on a field: relations of all kinds are one thing. -/
def key : Decorator → String
  | .primaryKey => "primary_key"
  | .unique => "unique"
  | .required => "required"
  | .default _ => "default"
  | .relation _ => "relation"

def isPrimaryKey : Decorator → Bool
  | .primaryKey => true
  | _ => false

def isUnique : Decorator → Bool
  | .unique => true
  | _ => false

def isRequired : Decorator → Bool
  | .required => true
  | _ => false

def default? : Decorator → Option Default
  | .default d => some d
  | _ => none

def relation? : Decorator → Option Relation
  | .relation r => some r
  | _ => none

end Decorator

/-- The field of a name, with a type and perhaps an array mark, of which the decorators are said. -/
def Field.written (name : Token) (type : Reading.FieldType) (isArray : Bool)
    (ds : List Decorator) : Field :=
  { name := name.text
    typeName := type.typeName
    isArray := type.isArray || isArray
    isPrimaryKey := ds.any Decorator.isPrimaryKey
    isRequired := ds.any Decorator.isRequired
    isUnique := ds.any Decorator.isUnique
    default := ds.findSome? Decorator.default?
    relation := ds.findSome? Decorator.relation?
    shape := type.shape
    position := name.position }

namespace Grammar

/-- A row of parts, one after the other. -/
inductive WritesRow {α : Type} (Writes : List Token → α → Prop) : List Token → List α → Prop
  | nil : WritesRow Writes [] []
  | cons {ts us : List Token} {a : α} {as : List α} (head : Writes ts a)
      (tail : WritesRow Writes us as) : WritesRow Writes (ts ++ us) (a :: as)

/-- The value of a default: a number, a string, a truth value, or a generator with its
parentheses. -/
inductive WritesValue : List Token → Default → Prop
  | number {t : Token} {v : Literal} (kind : t.kind = .numberLiteral)
      (numeral : Literal.ofNumeral t.text = .ok v) : WritesValue [t] (.literal v)
  | string {t : Token} (kind : t.kind = .stringLiteral) : WritesValue [t] (.literal (.text t.text))
  | true {t : Token} (kind : t.kind = .identifier) (text : t.text = "true") :
      WritesValue [t] (.literal (.bool true))
  | false {t : Token} (kind : t.kind = .identifier) (text : t.text = "false") :
      WritesValue [t] (.literal (.bool false))
  | call {t opening closing : Token} {g : Generator} (kind : t.kind = .identifier)
      (text : t.text = g.name) (opens : opening.kind = .openParen)
      (closes : closing.kind = .closeParen) : WritesValue [t, opening, closing] (.call g)

/-- What is said of a field: a decorator without its sign. -/
inductive WritesSaying : List Token → Decorator → Prop
  | primaryKey {t : Token} (kind : t.kind = .identifier) (text : t.text = "primary_key") :
      WritesSaying [t] .primaryKey
  | unique {t : Token} (kind : t.kind = .identifier) (text : t.text = "unique") :
      WritesSaying [t] .unique
  | required {t : Token} (kind : t.kind = .identifier) (text : t.text = "required") :
      WritesSaying [t] .required
  | default {t opening closing : Token} {ts : List Token} {d : Default}
      (kind : t.kind = .identifier) (text : t.text = "default") (opens : opening.kind = .openParen)
      (value : WritesValue ts d) (closes : closing.kind = .closeParen) :
      WritesSaying (t :: opening :: (ts ++ [closing])) (.default d)
  | relation {t : Token} {k : RelationKind} (kind : t.kind = .identifier) (text : t.text = k.name) :
      WritesSaying [t] (.relation ⟨k, none⟩)
  | keyedRelation {t opening key closing : Token} {k : RelationKind} (kind : t.kind = .identifier)
      (text : t.text = k.name) (opens : opening.kind = .openParen) (named : key.kind.isName)
      (closes : closing.kind = .closeParen) :
      WritesSaying [t, opening, key, closing] (.relation ⟨k, some key.text⟩)

/-- A decorator. -/
inductive WritesDecorator : List Token → Decorator → Prop
  | mk {sign : Token} {ts : List Token} {d : Decorator} (signed : sign.kind = .atSign)
      (saying : WritesSaying ts d) : WritesDecorator (sign :: ts) d

/-- An array mark, or none. -/
inductive WritesMark : List Token → Bool → Prop
  | absent : WritesMark [] false
  | present {opening closing : Token} (opens : opening.kind = .openBracket)
      (closes : closing.kind = .closeBracket) : WritesMark [opening, closing] true

/-- A type, without the array mark that may follow it. -/
inductive WritesType : List Token → Reading.FieldType → Prop
  | scalar {t : Token} (kind : t.kind.isPrimitive) : WritesType [t] ⟨t.text, false, none⟩
  | model {t : Token} (kind : t.kind = .identifier) : WritesType [t] ⟨t.text, false, none⟩
  | json {t block : Token} {ts : List Token} {isArray : Bool} {s : Shape}
      (kind : t.kind = .jsonType) (marked : WritesMark ts isArray) (raw : block.kind = .rawObject)
      (shape : Shape.ofText block.text block.position isArray = .ok s) :
      WritesType (t :: (ts ++ [block])) ⟨t.text, isArray, some s⟩

/-- A field. -/
inductive WritesField : List Token → Field → Prop
  | mk {name : Token} {ts us vs : List Token} {type : Reading.FieldType} {isArray : Bool}
      {ds : List Decorator} (named : name.kind.isName) (typed : WritesType ts type)
      (marked : WritesMark us isArray) (decorated : WritesRow WritesDecorator vs ds)
      (distinct : (ds.map Decorator.key).Nodup) :
      WritesField (name :: (ts ++ (us ++ vs))) (.written name type isArray ds)

/-- Names with commas between them. -/
inductive WritesNames : List Token → List String → Prop
  | last {t : Token} (named : t.kind.isName) : WritesNames [t] [t.text]
  | cons {t comma : Token} {ts : List Token} {names : List String} (named : t.kind.isName)
      (separated : comma.kind = .comma) (rest : WritesNames ts names) :
      WritesNames (t :: comma :: ts) (t.text :: names)

/-- The arguments of a block of columns that are unique together. -/
inductive WritesUnique : List Token → List String → Prop
  | mk {paren bracket bracket' paren' : Token} {ts : List Token} {names : List String}
      (opens : paren.kind = .openParen) (opens' : bracket.kind = .openBracket)
      (listed : WritesNames ts names) (closes' : bracket'.kind = .closeBracket)
      (closes : paren'.kind = .closeParen) :
      WritesUnique (paren :: bracket :: (ts ++ [bracket', paren'])) names

/-- A member of a model. -/
inductive WritesMember : List Token → Reading.Member → Prop
  | field {ts : List Token} {f : Field} (written : WritesField ts f) : WritesMember ts (.field f)
  | unique {t : Token} {ts : List Token} {names : List String} (kind : t.kind = .composite)
      (text : t.text = "@@unique") (listed : WritesUnique ts names) :
      WritesMember (t :: ts) (.unique names)

/-- A model. -/
inductive WritesModel : List Token → Model → Prop
  | mk {first name opening closing : Token} {ts : List Token} {ms : List Reading.Member}
      (begins : first.kind = .model) (named : name.kind = .identifier)
      (opens : opening.kind = .openBrace) (members : WritesRow WritesMember ts ms)
      (closes : closing.kind = .closeBrace) :
      WritesModel (first :: name :: opening :: (ts ++ [closing]))
        { name := name.text
          fields := ms.filterMap Reading.Member.field?
          uniques := ms.filterMap Reading.Member.unique?
          position := first.position }

end Grammar

/-! ### What decorators say together -/

/-- Where no two decorators have one key, each is said as if it were the only one. -/
theorem Field.foldl_decorate {ds : List Decorator} (h : (ds.map Decorator.key).Nodup) (f : Field) :
    ds.foldl Field.decorate f =
      { f with
        isPrimaryKey := f.isPrimaryKey || ds.any Decorator.isPrimaryKey
        isRequired := f.isRequired || ds.any Decorator.isRequired
        isUnique := f.isUnique || ds.any Decorator.isUnique
        default := (ds.findSome? Decorator.default?).or f.default
        relation := (ds.findSome? Decorator.relation?).or f.relation } := by
  induction ds generalizing f with
  | nil => simp
  | cons d ds ih =>
      rw [List.map_cons, List.nodup_cons] at h
      obtain ⟨hkey, hds⟩ := h
      rw [List.foldl_cons, ih hds]
      -- what is said once is not said by the others
      have hone : ∀ e ∈ ds, e.key ≠ d.key := fun e he heq =>
        hkey (heq ▸ List.mem_map_of_mem he)
      cases d with
      | default v =>
          have hnone : ds.findSome? Decorator.default? = none :=
            List.findSome?_eq_none_iff.mpr fun e he => by
              cases e with
              | default w => exact absurd rfl (hone (.default w) he)
              | _ => rfl
          simp [decorate, hnone, List.findSome?_cons, Decorator.isPrimaryKey, Decorator.isRequired,
            Decorator.isUnique, Decorator.default?, Decorator.relation?]
      | relation r =>
          have hnone : ds.findSome? Decorator.relation? = none :=
            List.findSome?_eq_none_iff.mpr fun e he => by
              cases e with
              | relation w => exact absurd rfl (hone (.relation w) he)
              | _ => rfl
          simp [decorate, hnone, List.findSome?_cons, Decorator.isPrimaryKey, Decorator.isRequired,
            Decorator.isUnique, Decorator.default?, Decorator.relation?]
      | _ =>
          simp [decorate, List.findSome?_cons, Decorator.isPrimaryKey, Decorator.isRequired,
            Decorator.isUnique, Decorator.default?, Decorator.relation?]

end Schemata
