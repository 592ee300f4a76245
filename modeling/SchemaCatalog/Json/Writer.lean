/-
  Writing JSON text.

  The written form is compact, without blanks, and holds only visible ASCII.  Every other character has a
  short escape or is written by its 16-bit units, four hexadecimal digits each.  Members stand in order.
  A member's key may be any scalar; it is written as a string that holds the scalar's own notation.

  Bytes have no written form, and neither has a key that is no scalar or an integer that would be too long to
  be read.  Lists and objects are written only as deep inside one another as there is room, which each that is
  opened lowers by one.  The first obstacle in the order of writing is told.
-/
import SchemaCatalog.Json.Number
import SchemaCatalog.Json.Nesting
import SchemaCatalog.Text.Quoted
import SchemaCatalog.Decimal.Layout

namespace SchemaCatalog.Json

open Text (CodePoint Points)

/-! ## Strings -/

/-- A 16-bit unit by number. -/
def writeUnit (n : Nat) : List Char := '\\' :: 'u' :: Text.hexDigits 4 n

/-- A character inside a string. -/
def writeChar (c : Char) : List Char :=
  if c = '"' then ['\\', '"']
  else if c = '\\' then ['\\', '\\']
  else if c = '\n' then ['\\', 'n']
  else if c = '\r' then ['\\', 'r']
  else if c = '\t' then ['\\', 't']
  else if c = '\x0c' then ['\\', 'f']
  else if c = '\x08' then ['\\', 'b']
  else if c.toNat < 0x20 then writeUnit c.toNat
  else if c.toNat < 0x7F then [c]
  else if c.toNat < 0x10000 then writeUnit c.toNat
  else
    writeUnit (0xD800 + (c.toNat - 0x10000) / 0x400) ++ writeUnit (0xDC00 + (c.toNat - 0x10000) % 0x400)

/-- A code point inside a string. -/
def writePoint : CodePoint → List Char
  | .char c => writeChar c
  | .half n => writeUnit (CodePoint.unit n)

/-- A string in its quotes. -/
def writeString (s : Points) : List Char := '"' :: s.flatMap writePoint ++ ['"']

/-! ## Values -/

/-- What keeps a value from being written. -/
inductive Obstacle where
  /-- A value or a key of a type that has no notation. -/
  | type
  /-- An integer is longer than allowed. -/
  | longInteger
  /-- A list or an object lies too deep inside others. -/
  | tooDeep

/-- The notation of a scalar. -/
def scalarText : Value → Except Obstacle (List Char)
  | .null => .ok ['n', 'u', 'l', 'l']
  | .bool true => .ok ['t', 'r', 'u', 'e']
  | .bool false => .ok ['f', 'a', 'l', 's', 'e']
  | .int i =>
    if maxDigits < (Nat.toDigits 10 i.natAbs).length then .error .longInteger else .ok (Decimal.intText i)
  | .float x => .ok (Decimal.text .document x)
  | .nan => .ok Decimal.Words.document.notANumber.toList
  | _ => .error .type

/-- The text that names a member in its written form. -/
def keyText : Value → Except Obstacle Points
  | .text s => .ok s
  | .torn t => .ok t.points
  | v =>
    match scalarText v with
    | .error o => .error o
    | .ok s => .ok (s.map .char)

mutual

/-- The written form of a value where so many more lists and objects may be opened. -/
def writeIn (room : Nat) : Value → Except Obstacle (List Char)
  | .list items =>
    match room with
    | 0 => .error .tooDeep
    | room + 1 => return '[' :: (← writeItems room items)
  | .object members =>
    match room with
    | 0 => .error .tooDeep
    | room + 1 => return '\x7b' :: (← writeMembers room members)
  | .text s => return writeString s
  | .torn t => return writeString t.points
  | v => scalarText v
termination_by structural v => v

/-- The items of a list with the commas between them and the closing bracket. -/
def writeItems (room : Nat) : List Value → Except Obstacle (List Char)
  | [] => return [']']
  | x :: xs => return (← writeIn room x) ++ (← writeMoreItems room xs)
termination_by structural xs => xs

/-- The items behind the first. -/
def writeMoreItems (room : Nat) : List Value → Except Obstacle (List Char)
  | [] => return [']']
  | x :: xs => return ',' :: ((← writeIn room x) ++ (← writeMoreItems room xs))
termination_by structural xs => xs

/-- The members of an object with the commas between them and the closing brace. -/
def writeMembers (room : Nat) : List (Value × Value) → Except Obstacle (List Char)
  | [] => return ['\x7d']
  | m :: ms => return (← writeMember room m) ++ (← writeMoreMembers room ms)
termination_by structural ms => ms

/-- The members behind the first. -/
def writeMoreMembers (room : Nat) : List (Value × Value) → Except Obstacle (List Char)
  | [] => return ['\x7d']
  | m :: ms => return ',' :: ((← writeMember room m) ++ (← writeMoreMembers room ms))
termination_by structural ms => ms

/-- A member with its name. -/
def writeMember (room : Nat) : Value × Value → Except Obstacle (List Char)
  | (k, v) => return writeString (← keyText k) ++ ':' :: (← writeIn room v)
termination_by structural m => m

end

/-- The written form of a value. -/
def write [Nesting] (v : Value) : Except Obstacle (List Char) := writeIn Nesting.deepest v

end SchemaCatalog.Json
