import Schemata.Schema

/-!
# Plans — join tables

A many-to-many relation is kept in a table of its own, one for each pair of models, whichever of
the two declares it and however often (`Schema.joinTables`).  The pair is in the order of the
names.  The first declaration that gives a name names the table; if none does, the name is put
together from the names of the pair.
-/

namespace Schemata

/-- The table that keeps a many-to-many relation. -/
structure JoinTable where
  name : String
  left : String
  right : String
  deriving DecidableEq, Repr

/-- A declared many-to-many relation: its pair of models in order, and the name it gives. -/
structure Pairing where
  left : String
  right : String
  key? : Option String
  deriving DecidableEq, Repr

/-- The two names in order. -/
def orderedPair (a b : String) : String × String := if b < a then (b, a) else (a, b)

/-- The many-to-many relation that a field of a model declares. -/
def Field.pairing? (model : String) (f : Field) : Option Pairing :=
  match f.relation with
  | none => none
  | some r =>
    if r.kind = .manyToMany && !f.isColumn then
      let (left, right) := orderedPair model f.typeName
      some ⟨left, right, r.key?⟩
    else none

namespace Schema

/-- The declared many-to-many relations. -/
def pairings (s : Schema) : List Pairing :=
  s.models.flatMap fun m => m.fields.filterMap (Field.pairing? m.name)

/-- The pairs of models with a many-to-many relation. -/
def pairs (s : Schema) : List (String × String) :=
  (s.pairings.map fun p => (p.left, p.right)).eraseDups

/-- The name that is given to the table of a pair. -/
def givenName? (s : Schema) (left right : String) : Option String :=
  s.pairings.findSome? fun p => if p.left = left ∧ p.right = right then p.key? else none

/-- The join tables of a schema. -/
def joinTables (s : Schema) : List JoinTable :=
  s.pairs.map fun (left, right) =>
    ⟨(s.givenName? left right).getD ("_" ++ left ++ "_" ++ right), left, right⟩

end Schema

end Schemata
