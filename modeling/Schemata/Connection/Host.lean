import Schemata.Text.Percent
import Schemata.Text.Quoted
import Schemata.Text.Split

/-!
# Connections — hosts in brackets

What may stand between the brackets of an address: a numeric address of version 6, or one of a
version yet to come, which begins with the letter `v`.

A version 6 address is eight groups of hexadecimal digits with colons between them.  Once, two
colons may stand for one or more groups of zeroes, the last two groups may be written as a version
4 address, and the name of a zone may follow after a percent sign.
-/

namespace Schemata

/-- Why a host may not stand in brackets. -/
inductive HostFault where
  | badFutureAddress
  | noAddress (host : String)
  | version4
  deriving DecidableEq, Repr

def HostFault.message : HostFault → String
  | .badFutureAddress => "IPvFuture address is invalid"
  | .noAddress host => s!"{Text.quoted host} does not appear to be an IPv4 or IPv6 address"
  | .version4 => "An IPv4 address cannot be in brackets"

namespace Host

/-- One of the four numbers of a version 4 address: up to 255, and without needless zeroes. -/
def isOctet (cs : List Char) : Bool :=
  !cs.isEmpty && cs.all Char.isDigit && cs.length ≤ 3 && (cs == ['0'] || cs.head? != some '0') &&
    (cs.foldl (fun n c => n * 10 + (c.toNat - 48)) 0) ≤ 255

/-- A numeric address of version 4. -/
def isVersion4 (cs : List Char) : Bool :=
  let parts := Text.splitOn '.' cs
  parts.length == 4 && parts.all isOctet

/-- A group of a version 6 address. -/
def isGroup (cs : List Char) : Bool :=
  !cs.isEmpty && cs.length ≤ 4 && cs.all fun c => (Text.hexValue? c).isSome

/-- The groups at an end of an address that is cut at its two colons: none if nothing is there. -/
def endGroups (parts : List (List Char)) : List (List Char) := if parts == [[]] then [] else parts

/-- Whether the parts between colons are eight groups, or fewer with a gap for the others. -/
def areGroups (parts : List (List Char)) : Bool :=
  let inner := (parts.drop 1).dropLast
  let before := inner.takeWhile fun p => !p.isEmpty
  if before.length = inner.length then parts.length == 8 && parts.all isGroup
  else
    let left := endGroups (parts.take (before.length + 1))
    let right := endGroups (parts.drop (before.length + 2))
    left.all isGroup && right.all isGroup && left.length + right.length ≤ 7

/-- The parts with a version 4 address at their end written as two groups. -/
def expandVersion4 (parts : List (List Char)) : Option (List (List Char)) :=
  match parts.getLast? with
  | none => some parts
  | some p =>
    if p.contains '.' then
      if isVersion4 p then some (parts.dropLast ++ [['0'], ['0']]) else none
    else some parts

/-- A numeric address of version 6. -/
def isVersion6 (cs : List Char) : Bool :=
  let (address, hasZone, zone) := Text.cut '%' cs
  let parts := Text.splitOn ':' address
  (!hasZone || (!zone.isEmpty && !zone.contains '%')) && !cs.contains '/' && 3 ≤ parts.length &&
    (match expandVersion4 parts with
    | some parts => areGroups parts
    | none => false)

/-- An address of a version yet to come: the number of the version, and something after a dot. -/
def isFuture (cs : List Char) : Bool :=
  let (version, _, rest) := Text.cut '.' (cs.drop 1)
  !version.isEmpty && version.all (fun c => (Text.hexValue? c).isSome) && !rest.isEmpty

/-- Whether a host may stand in brackets. -/
def check (cs : List Char) : Except HostFault Unit :=
  if cs.head? = some 'v' then
    if isFuture cs then .ok () else .error .badFutureAddress
  else if isVersion4 cs then .error .version4
  else if isVersion6 cs then .ok ()
  else .error (.noAddress (String.ofList cs))

end Host

end Schemata
