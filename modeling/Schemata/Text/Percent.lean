import Schemata.Text.Utf8

/-!
# Text — percent escapes

In an address a byte may be written as a percent sign and two hexadecimal digits.  `unescaped`
reads such a text: the escapes and the plain characters between them are bytes of UTF-8, and
where they are none the replacement character stands.  A percent sign without two digits stands
for itself, and so does every character outside the first 128.

A text without a percent sign is its own reading (`unescapeBytes_of_plain`).
-/

namespace Schemata.Text

/-- What a hexadecimal digit stands for. -/
def hexValue? (c : Char) : Option Nat :=
  if '0' ≤ c && c ≤ '9' then some (c.toNat - 48)
  else if 'a' ≤ c && c ≤ 'f' then some (c.toNat - 87)
  else if 'A' ≤ c && c ≤ 'F' then some (c.toNat - 55)
  else none

/-- A byte of an escaped text, or a character that is no byte. -/
inductive EscapedUnit where
  | byte (b : UInt8)
  | char (c : Char)
  deriving DecidableEq, Repr

/-- The unit of a character that is no escape. -/
def EscapedUnit.ofChar (c : Char) : EscapedUnit :=
  if c.toNat < 128 then .byte (UInt8.ofNat c.toNat) else .char c

/-- The byte of the escape at the front of a text. -/
def escape? : List Char → Option UInt8
  | '%' :: a :: b :: _ =>
    match hexValue? a, hexValue? b with
    | some x, some y => some (UInt8.ofNat (x * 16 + y))
    | _, _ => none
  | _ => none

/-- The units of a text. -/
def unescapeBytes : List Char → List EscapedUnit
  | [] => []
  | c :: cs =>
    match escape? (c :: cs) with
    | some b => .byte b :: unescapeBytes (cs.drop 2)
    | none => .ofChar c :: unescapeBytes cs
termination_by cs => cs.length
decreasing_by all_goals simp only [List.length_drop, List.length_cons]; omega

/-- The characters of the units: each longest run of bytes is read for itself, `run` being the
bytes before. -/
def joinUnits (run : List UInt8) : List EscapedUnit → List Char
  | [] => decodeLossy run
  | .byte b :: us => joinUnits (run ++ [b]) us
  | .char c :: us => decodeLossy run ++ c :: joinUnits [] us

/-- A text with its escapes read. -/
def unescaped (s : String) : String := String.ofList (joinUnits [] (unescapeBytes s.toList))

theorem escape?_of_ne {c : Char} {cs : List Char} (h : c ≠ '%') : escape? (c :: cs) = none := by
  unfold escape?
  split
  next heq => exact absurd (List.cons.inj heq).1 h
  next => rfl

theorem unescapeBytes_of_plain {cs : List Char} (h : '%' ∉ cs) :
    unescapeBytes cs = cs.map EscapedUnit.ofChar := by
  induction cs with
  | nil => unfold unescapeBytes; rfl
  | cons c cs ih =>
    rw [List.mem_cons, not_or] at h
    unfold unescapeBytes
    rw [escape?_of_ne (Ne.symm h.1), ih h.2]
    rfl

end Schemata.Text
