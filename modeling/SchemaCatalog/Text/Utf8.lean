/-
  Text as bytes in UTF-8.

  Reading is strict: overlong forms, encoded surrogates and values above U+10FFFF are refused, because
  each lead byte fixes how many bytes follow and in which range the second one lies.  A fault names the
  offending bytes: a byte that cannot start a character, or the lead byte together with those of its
  followers that were still acceptable.
-/
import SchemaCatalog.Text.Quoted

namespace SchemaCatalog.Text.Utf8

/-- The bytes of a text. -/
def encode (s : List Char) : List UInt8 := s.flatMap String.utf8EncodeChar

/-- Why bytes are no text: the number of bytes before the fault and the offending bytes. -/
inductive Fault where
  /-- A byte that starts no character. -/
  | start (position : Nat) (byte : UInt8)
  /-- A byte that cannot go on with the character begun by `bytes`. -/
  | continuation (position : Nat) (bytes : List UInt8)
  /-- The end inside the character begun by `bytes`. -/
  | ended (position : Nat) (bytes : List UInt8)

/-- What a lead byte announces: the value of its own bits, the range of the byte after it, and how many
more bytes follow that one. -/
structure Lead where
  bits : Nat
  first : Nat
  last : Nat
  more : Nat

/-- The announcement of a lead byte, for characters of two bytes and more. -/
def lead? (b : Nat) : Option Lead :=
  if b < 0xC2 then none
  else if b < 0xE0 then some ⟨b - 0xC0, 0x80, 0xBF, 0⟩
  else if b = 0xE0 then some ⟨0, 0xA0, 0xBF, 1⟩
  else if b = 0xED then some ⟨0xD, 0x80, 0x9F, 1⟩
  else if b < 0xF0 then some ⟨b - 0xE0, 0x80, 0xBF, 1⟩
  else if b = 0xF0 then some ⟨0, 0x90, 0xBF, 2⟩
  else if b < 0xF4 then some ⟨b - 0xF0, 0x80, 0xBF, 2⟩
  else if b = 0xF4 then some ⟨4, 0x80, 0x8F, 2⟩
  else none

/-- Where reading stands: between two characters, or inside one with the bits so far, the range of the
next byte, the number of bytes after that, and the bytes already read (last first). -/
inductive State where
  | between
  | within (bits first last more : Nat) (seen : List UInt8)

/-- Reads bytes from a state, at a position. -/
def decodeFrom (position : Nat) : State → List UInt8 → Except Fault (List Char)
  | .between, [] => .ok []
  | .within _ _ _ _ seen, [] => .error (.ended (position - seen.length) seen.reverse)
  | .between, b :: rest =>
    if b.toNat < 0x80 then
      (decodeFrom (position + 1) .between rest).map (Char.ofNat b.toNat :: ·)
    else match lead? b.toNat with
      | none => .error (.start position b)
      | some l => decodeFrom (position + 1) (.within l.bits l.first l.last l.more [b]) rest
  | .within bits first last more seen, b :: rest =>
    if first ≤ b.toNat && b.toNat ≤ last then
      let bits := bits * 64 + b.toNat % 64
      match more with
      | 0 => (decodeFrom (position + 1) .between rest).map (Char.ofNat bits :: ·)
      | more + 1 => decodeFrom (position + 1) (.within bits 0x80 0xBF more (b :: seen)) rest
    else .error (.continuation (position - seen.length) seen.reverse)

/-- The text of the bytes. -/
def decode (bytes : List UInt8) : Except Fault (List Char) := decodeFrom 0 .between bytes

/-! ## The wording of a fault -/

/-- The offending bytes: one by its number and place, several by their places alone. -/
def place (position : Nat) : List UInt8 → String
  | [b] => s!"byte 0x{String.ofList (hexDigits 2 b.toNat)} in position {position}"
  | bs => s!"bytes in position {position}-{position + bs.length - 1}"

/-- The wording of a fault. -/
def Fault.message : Fault → String
  | .start p b => s!"'utf-8' codec can't decode {place p [b]}: invalid start byte"
  | .continuation p bs => s!"'utf-8' codec can't decode {place p bs}: invalid continuation byte"
  | .ended p bs => s!"'utf-8' codec can't decode {place p bs}: unexpected end of data"

end SchemaCatalog.Text.Utf8
