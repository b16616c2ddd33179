import Schemata.Diagnostic

/-!
# Shapes

The declared shape of a `json` column: the keys of an object, each with the name of a type or
with a shape of its own.  A shape keeps the text it was read from and the place where that text
begins.
-/

namespace Schemata

mutual

/-- The shape of an object. -/
structure Shape where
  raw : String
  isArray : Bool
  entries : List ShapeEntry
  position : Position

/-- One key of an object. -/
structure ShapeEntry where
  name : String
  typeName : String
  isOptional : Bool
  isArray : Bool
  shape : Option Shape

end

mutual

/-- Whether two shapes are the same, the raw text and the place included. -/
def Shape.decEq : (a b : Shape) → Decidable (a = b)
  | ⟨raw, isArray, entries, position⟩, ⟨raw', isArray', entries', position'⟩ =>
    match ShapeEntry.decEqList entries entries' with
    | .isTrue h => decidable_of_iff (raw = raw' ∧ isArray = isArray' ∧ position = position')
        (by simp [h])
    | .isFalse h => .isFalse (by simp [h])

def ShapeEntry.decEqList : (xs ys : List ShapeEntry) → Decidable (xs = ys)
  | [], [] => .isTrue rfl
  | [], _ :: _ => .isFalse (by simp)
  | _ :: _, [] => .isFalse (by simp)
  | x :: xs, y :: ys =>
    match ShapeEntry.decEq x y, ShapeEntry.decEqList xs ys with
    | .isTrue h, .isTrue h' => .isTrue (by rw [h, h'])
    | .isFalse h, _ => .isFalse (by simp [h])
    | _, .isFalse h' => .isFalse (by simp [h'])

def ShapeEntry.decEq : (x y : ShapeEntry) → Decidable (x = y)
  | ⟨name, typeName, isOptional, isArray, shape⟩,
    ⟨name', typeName', isOptional', isArray', shape'⟩ =>
    match Shape.decEqOption shape shape' with
    | .isTrue h => decidable_of_iff
        (name = name' ∧ typeName = typeName' ∧ isOptional = isOptional' ∧ isArray = isArray')
        (by simp [h])
    | .isFalse h => .isFalse (by simp [h])

def Shape.decEqOption : (a b : Option Shape) → Decidable (a = b)
  | none, none => .isTrue rfl
  | none, some _ => .isFalse (by simp)
  | some _, none => .isFalse (by simp)
  | some a, some b =>
    match Shape.decEq a b with
    | .isTrue h => .isTrue (by rw [h])
    | .isFalse h => .isFalse (by simp [h])

end

instance : DecidableEq Shape := Shape.decEq

end Schemata
