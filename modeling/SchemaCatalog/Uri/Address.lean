/-
  The written forms of network addresses.

  A version 6 address is eight groups of up to four hexadecimal digits, separated by colons.  One run of
  zero groups may be left out where two colons meet, and the last two groups may be written as a version
  4 address; a zone may follow after a percent sign.  A host between brackets is such an address, or an
  address of a later version: a `v`, its number, a dot and anything.
-/
import SchemaCatalog.Text.Cut

namespace SchemaCatalog.Uri

/-- A digit of a hexadecimal number. -/
def isHexDigit (c : Char) : Bool :=
  c.isDigit || ('a' ≤ c && c ≤ 'f') || ('A' ≤ c && c ≤ 'F')

/-- One of the four numbers of a version 4 address: 0 to 255 without leading zeros. -/
def isOctet (s : List Char) : Bool :=
  !s.isEmpty && s.all Char.isDigit && decide (s.length ≤ 3) &&
    (s == ['0'] || s.head? != some '0') && decide (Nat.ofDigitChars 10 s 0 ≤ 255)

/-- A version 4 address. -/
def isIpv4 (s : List Char) : Bool :=
  let octets := Text.pieces '.' s
  octets.length == 4 && octets.all isOctet

/-- A group of a version 6 address. -/
def isGroup (s : List Char) : Bool := !s.isEmpty && s.all isHexDigit && decide (s.length ≤ 4)

/-- The number of groups on one side of a gap: none if the colon of the gap itself opens or closes the
address, else all of them, each well formed. -/
def groupCount? (side : List (List Char)) : Option Nat :=
  if side == [[]] then some 0
  else if side.all isGroup then some side.length
  else none

/-- The pieces with a version 4 address at the end replaced by two groups. -/
def expandTail? (pieces : List (List Char)) : Option (List (List Char)) :=
  match pieces.getLast? with
  | none => none
  | some last =>
    if last.contains '.' then
      if isIpv4 last then some (pieces.dropLast ++ [['0'], ['0']]) else none
    else some pieces

/-- The position of the first empty piece that is neither the first nor the last. -/
def gap? (pieces : List (List Char)) : Option Nat :=
  ((pieces.drop 1).dropLast.findIdx? List.isEmpty).map (· + 1)

/-- The groups of a version 6 address, given as the pieces between its colons. -/
def areGroups (pieces : List (List Char)) : Bool :=
  match gap? pieces with
  | none => pieces.length == 8 && pieces.all isGroup
  | some i =>
    match groupCount? (pieces.take i), groupCount? (pieces.drop (i + 1)) with
    | some high, some low => decide (high + low < 8)
    | _, _ => false

/-- A version 6 address without zone. -/
def isIpv6 (s : List Char) : Bool :=
  let pieces := Text.pieces ':' s
  decide (3 ≤ pieces.length) &&
    match expandTail? pieces with
    | none => false
    | some pieces => decide (pieces.length ≤ 9) && areGroups pieces

/-- A version 6 address, with or without zone. -/
def isZonedIpv6 (s : List Char) : Bool :=
  isIpv6 (Text.before '%' s) &&
    match Text.after? '%' s with
    | none => true
    | some zone => !zone.isEmpty && !zone.contains '%'

/-- An address of a later version, behind its `v`. -/
def isLaterAddress (s : List Char) : Bool :=
  match s.dropWhile isHexDigit with
  | '.' :: rest => !(s.takeWhile isHexDigit).isEmpty && !rest.isEmpty
  | _ => false

/-- A host that may stand between brackets. -/
def isBracketedHost (s : List Char) : Bool :=
  match s with
  | 'v' :: rest => isLaterAddress rest
  | _ => isZonedIpv6 s

end SchemaCatalog.Uri
