/-
  Numbers in JSON text.

  A number without fraction and exponent is an integer of any size up to 4300 digits; every other number
  is the double nearest to it.  A fraction counts only if a digit follows the point, an exponent only if
  a digit follows its sign; what does not count is left unread.
-/
import SchemaCatalog.Json.Fault
import SchemaCatalog.Value.Basic

namespace SchemaCatalog.Json

/-- A number as written. -/
structure Numeral where
  negative : Bool
  whole : List Char
  fraction : List Char
  exponent : Option Int

/-- The number that digits write. -/
def natOf (digits : List Char) : Nat := Nat.ofDigitChars 10 digits 0

/-- A sign and the text behind it. -/
def readSign (s : List Char) : Bool × List Char :=
  match s with
  | [] => (false, [])
  | c :: rest => if c = '-' then (true, rest) else (false, s)

/-- The digits before the point: a lone zero, or digits that do not start with one. -/
def readWhole : List Char → Option (List Char × List Char)
  | [] => none
  | c :: rest =>
    if c = '0' then some ([c], rest)
    else if c.isDigit then some (c :: rest.takeWhile Char.isDigit, rest.dropWhile Char.isDigit)
    else none

/-- The digits after a point. -/
def readFraction (s : List Char) : List Char × List Char :=
  match s with
  | [] => ([], s)
  | c :: rest =>
    if c = '.' && !(rest.takeWhile Char.isDigit).isEmpty then
      (rest.takeWhile Char.isDigit, rest.dropWhile Char.isDigit)
    else ([], s)

/-- The exponent after an `e`. -/
def readExponent (s : List Char) : Option Int × List Char :=
  match s with
  | [] => (none, s)
  | c :: rest =>
    let (negative, rest) := match rest with
      | [] => (false, rest)
      | d :: rest' => if d = '-' then (true, rest') else if d = '+' then (false, rest') else (false, rest)
    let digits := rest.takeWhile Char.isDigit
    if (c = 'e' || c = 'E') && !digits.isEmpty then
      let n : Int := natOf digits
      (some (if negative then -n else n), rest.dropWhile Char.isDigit)
    else (none, s)

/-- A number and the text behind it. -/
def readNumeral (s : List Char) : Option (Numeral × List Char) :=
  let (negative, rest) := readSign s
  match readWhole rest with
  | none => none
  | some (whole, rest) =>
    let (fraction, rest) := readFraction rest
    let (exponent, rest) := readExponent rest
    some (⟨negative, whole, fraction, exponent⟩, rest)

/-- The longest integer that is read. -/
def maxDigits : Nat := 4300

/-- The value of a number, or the count of its digits if there are too many. -/
def Numeral.value (n : Numeral) : Except Nat Value :=
  if n.fraction.isEmpty && n.exponent.isNone then
    if maxDigits < n.whole.length then .error n.whole.length
    else
      let i : Int := natOf n.whole
      .ok (.int (if n.negative then -i else i))
  else
    let digits := natOf (n.whole ++ n.fraction)
    .ok (.float (Decimal.toFloat n.negative digits (n.exponent.getD 0 - n.fraction.length)))

end SchemaCatalog.Json
