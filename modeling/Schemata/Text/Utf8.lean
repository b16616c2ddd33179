/-!
# Text — bytes as text

Reading bytes as UTF-8.  The strict reading (`decode`) answers the text, or the first place
where the bytes are no UTF-8, with what is wrong there: a byte no character starts with, a byte
that does not continue the character before it, or the end of the bytes inside a character.
The lossy reading (`decodeLossy`) puts the replacement character in every such place and goes
on.  Both go by `next`, the reading of one character.

`unifyNewlines` turns each of the three line ends into the newline.
-/

namespace Schemata.Text

/-- What is wrong with bytes that are no UTF-8. -/
inductive ByteProblem where
  | start
  | continuation
  | truncated
  deriving DecidableEq, Repr

/-- The place of the problem: the first byte of it, its offset, and how many bytes it takes. -/
structure ByteFault where
  problem : ByteProblem
  byte : UInt8
  offset : Nat
  length : Nat
  deriving DecidableEq, Repr

def ByteProblem.message : ByteProblem → String
  | .start => "invalid start byte"
  | .continuation => "invalid continuation byte"
  | .truncated => "unexpected end of data"

def hexByte (b : UInt8) : String :=
  let digits := Nat.toDigits 16 b.toNat
  String.ofList (List.replicate (2 - digits.length) '0' ++ digits)

def ByteFault.message (f : ByteFault) : String :=
  let place :=
    if f.length ≤ 1 then s!"byte 0x{hexByte f.byte} in position {f.offset}"
    else s!"bytes in position {f.offset}-{f.offset + f.length - 1}"
  s!"'utf-8' codec can't decode {place}: {f.problem.message}"

/-- A byte that goes on a character. -/
def isContinuation (b : UInt8) : Bool := 0x80 ≤ b && b < 0xC0

/-- How many bytes follow a first byte. -/
def followers? (b : UInt8) : Option Nat :=
  if b < 0x80 then some 0
  else if b < 0xC2 then none
  else if b < 0xE0 then some 1
  else if b < 0xF0 then some 2
  else if b < 0xF5 then some 3
  else none

/-- Whether `b` may be the second byte after the first byte `a`.  Besides being a continuation
it must not make the character shorter to write, a surrogate, or too large. -/
def mayFollow (a b : UInt8) : Bool :=
  isContinuation b &&
    (a != 0xE0 || 0xA0 ≤ b) && (a != 0xED || b < 0xA0) &&
    (a != 0xF0 || 0x90 ≤ b) && (a != 0xF4 || b < 0x90)

/-- The part of its first byte that belongs to the number of a character with `n` followers. -/
def leadBits (n : Nat) (b : UInt8) : Nat :=
  match n with
  | 0 => b.toNat
  | 1 => b.toNat % 32
  | 2 => b.toNat % 16
  | _ => b.toNat % 8

/-- Reads `n` more continuation bytes, of which `done` are already read. -/
def continueWith (n done acc : Nat) (bs : List UInt8) : Except (ByteProblem × Nat) Nat :=
  match n, bs with
  | 0, _ => .ok acc
  | _ + 1, [] => .error (.truncated, done)
  | n + 1, b :: bs =>
    if isContinuation b then continueWith n (done + 1) (acc * 64 + b.toNat % 64) bs
    else .error (.continuation, done)

/-- One character from a first byte and what follows it, and how many of those that follow
belong to it; or the problem and the number of bytes it takes. -/
def next (a : UInt8) (bs : List UInt8) : Except (ByteProblem × Nat) (Char × Nat) :=
  match followers? a with
  | none => .error (.start, 1)
  | some 0 => .ok (Char.ofNat a.toNat, 0)
  | some (n + 1) =>
    match bs with
    | [] => .error (.truncated, 1)
    | b :: bs =>
      if mayFollow a b then
        (continueWith n 2 (leadBits (n + 1) a * 64 + b.toNat % 64) bs).map fun code =>
          (Char.ofNat code, n + 1)
      else .error (.continuation, 1)

/-- Reads bytes that stand at `offset`. -/
def decodeFrom (offset : Nat) : List UInt8 → Except ByteFault (List Char)
  | [] => .ok []
  | a :: bs =>
    match next a bs with
    | .error (problem, length) => .error ⟨problem, a, offset, length⟩
    | .ok (c, n) => (decodeFrom (offset + n + 1) (bs.drop n)).map (c :: ·)
termination_by bs => bs.length
decreasing_by simp only [List.length_drop, List.length_cons]; omega

/-- The text that the bytes write, or the first place where they write none. -/
def decode (bs : List UInt8) : Except ByteFault (List Char) := decodeFrom 0 bs

/-- The text that the bytes write, with a replacement character where they write none. -/
def decodeLossy : List UInt8 → List Char
  | [] => []
  | a :: bs =>
    match next a bs with
    | .error (_, length) => Char.ofNat 0xFFFD :: decodeLossy (bs.drop (length - 1))
    | .ok (c, n) => c :: decodeLossy (bs.drop n)
termination_by bs => bs.length
decreasing_by all_goals simp only [List.length_drop, List.length_cons]; omega

/-- A carriage return, a newline, or one after the other: each is one newline. -/
def unifyNewlines : List Char → List Char
  | [] => []
  | '\r' :: '\n' :: cs => '\n' :: unifyNewlines cs
  | c :: cs => (if c = '\r' then '\n' else c) :: unifyNewlines cs

end Schemata.Text
