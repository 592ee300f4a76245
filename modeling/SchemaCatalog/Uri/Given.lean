/-
  Locations given as values.

  A location is a string, or a byte string of nothing but ASCII.  What is taken out of it is given as it is
  itself: the parts of a byte string are byte strings.  Torn texts come from documents, and no location is
  taken from there; they are refused.
-/
import SchemaCatalog.Uri.Basic
import SchemaCatalog.Value.Basic

namespace SchemaCatalog.Uri

/-- The text of bytes, if all of them are ASCII. -/
def asciiText? (bs : List UInt8) : Option (List Char) :=
  if bs.all (· < 0x80) then some (bs.map fun b => Char.ofNat b.toNat) else none

/-- The text of a location. -/
def textOf? : Value → Option (List Char)
  | .text s => some s.toList
  | .bytes bs => asciiText? bs
  | _ => none

/-- A part of a location, given as the location is. -/
def part (location : Value) (s : List Char) : Value :=
  match location with
  | .bytes _ => .bytes (s.map fun c => UInt8.ofNat c.toNat)
  | _ => .text (String.ofList s)

/-- The parts of a text are texts. -/
@[simp] theorem part_text (location : String) (s : List Char) :
    part (.text location) s = .text (String.ofList s) := rfl

end SchemaCatalog.Uri
