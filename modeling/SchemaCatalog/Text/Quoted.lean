/-
  Quoted text, as messages show a text inside a list or a name of a key.

  The text stands between single quotes, or between double quotes when it holds a single quote and no
  double one.  The quote in use, the backslash, and line feed, carriage return and tab are escaped by a
  backslash; every other character without a visible form is written by its number in two, four or
  eight hexadecimal digits, whichever is the first to fit.  All else stays as it is.  Halves of characters
  are written by their numbers, too.

  Byte strings are quoted in the same way.  A buffer differs in one point: its single quotes are escaped
  and its double ones are not, whichever of the two surrounds it.
-/
import SchemaCatalog.Text.Printable
import SchemaCatalog.Text.Points

namespace SchemaCatalog.Text

/-- The digit of a value below 16, in small letters. -/
def hexDigit (n : Nat) : Char := if n < 10 then Char.ofNat (48 + n) else Char.ofNat (87 + n)

/-- The last `width` hexadecimal digits of a number. -/
def hexDigits : Nat → Nat → List Char
  | 0, _ => []
  | width + 1, n => hexDigits width (n / 16) ++ [hexDigit (n % 16)]

/-- The number of a character behind a backslash: `x`, `u` or `U` and two, four or eight digits. -/
def numbered (n : Nat) : List Char :=
  if n < 0x100 then '\\' :: 'x' :: hexDigits 2 n
  else if n < 0x10000 then '\\' :: 'u' :: hexDigits 4 n
  else '\\' :: 'U' :: hexDigits 8 n

/-- The quote that surrounds a text. -/
def quoteFor (s : List Char) : Char := if s.contains '\'' && !s.contains '"' then '"' else '\''

/-- One character of quoted text. -/
def escaped (quote c : Char) : List Char :=
  if c = quote || c = '\\' then ['\\', c]
  else if c = '\n' then ['\\', 'n']
  else if c = '\r' then ['\\', 'r']
  else if c = '\t' then ['\\', 't']
  else if isPrintable c then [c]
  else numbered c.toNat

/-- The text in quotes. -/
def quoted (s : String) : String :=
  let quote := quoteFor s.toList
  String.ofList (quote :: s.toList.flatMap (escaped quote) ++ [quote])

/-- One code point of quoted text. -/
def escapedPoint (quote : Char) : CodePoint → List Char
  | .char c => escaped quote c
  | .half n => numbered (CodePoint.unit n)

/-- The text in quotes, whole or torn. -/
def quotedPoints (ps : Points) : String :=
  let quote := quoteFor (ps.map CodePoint.shown)
  String.ofList (quote :: ps.flatMap (escapedPoint quote) ++ [quote])

/-! ## Bytes -/

/-- One byte of a quoted byte string: ASCII as text, every other byte by its number. -/
def escapedByte (quote : Char) (b : UInt8) : List Char :=
  let c := Char.ofNat b.toNat
  if b < 0x7F then escaped quote c else '\\' :: 'x' :: hexDigits 2 b.toNat

/-- The quote that surrounds a byte string. -/
def quoteForBytes (bs : List UInt8) : Char := quoteFor (bs.map fun b => Char.ofNat b.toNat)

/-- The byte string in quotes, marked with a `b`. -/
def quotedBytes (bs : List UInt8) : String :=
  let quote := quoteForBytes bs
  String.ofList ('b' :: quote :: bs.flatMap (escapedByte quote) ++ [quote])

/-- The bytes of a buffer in quotes, marked as what they are. -/
def quotedBuffer (bs : List UInt8) : String :=
  let quote := quoteForBytes bs
  "bytearray(b" ++ String.ofList (quote :: bs.flatMap (escapedByte '\'') ++ [quote]) ++ ")"

end SchemaCatalog.Text
