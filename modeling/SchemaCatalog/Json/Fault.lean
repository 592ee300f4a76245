/-
  What can be wrong with a JSON text, and how it is told.

  A fault is noticed while some of the text is still unread; it keeps that rest, and its place in the
  text follows from how much is left.  Places are counted in code points from zero, lines and columns
  from one.

  That a text nests too deep is a fault of another sort: nothing is wrong with the text, there is no room
  to go on with it.
-/
import SchemaCatalog.Text.Points

namespace SchemaCatalog.Json

/-- What is wrong. -/
inductive Problem where
  /-- No value starts here. -/
  | value
  /-- Something follows the whole value. -/
  | extra
  /-- No member starts here. -/
  | name
  | colon
  | comma
  | unterminated
  | control
  | escape
  | unicodeEscape
  | byteOrderMark
  /-- An integer is longer than allowed. -/
  | longInteger (digits : Nat)
  /-- A list lies too deep inside others. -/
  | deepList
  /-- An object lies too deep inside others. -/
  | deepObject
deriving DecidableEq

/-- Whether there is no room to go on. -/
def Problem.isDeep : Problem → Bool
  | .deepList | .deepObject => true
  | _ => false

/-- The wording of a problem. -/
def Problem.text : Problem → String
  | .value => "Expecting value"
  | .extra => "Extra data"
  | .name => "Expecting property name enclosed in double quotes"
  | .colon => "Expecting ':' delimiter"
  | .comma => "Expecting ',' delimiter"
  | .unterminated => "Unterminated string starting at"
  | .control => "Invalid control character at"
  | .escape => "Invalid \\escape"
  | .unicodeEscape => "Invalid \\uXXXX escape"
  | .byteOrderMark => "Unexpected UTF-8 BOM (decode using utf-8-sig)"
  | .longInteger digits =>
    s!"Exceeds the limit (4300 digits) for integer string conversion: value has {digits} digits" ++
      "; use sys.set_int_max_str_digits() to increase the limit"
  | .deepList => "maximum recursion depth exceeded while decoding a JSON array from a unicode string"
  | .deepObject => "maximum recursion depth exceeded while decoding a JSON object from a unicode string"

/-- A problem and the text from its place to the end. -/
structure Fault where
  problem : Problem
  rest : Text.Points

/-- The line and column behind a stretch of text, both from one. -/
def lineColumn : Text.Points → Nat → Nat → Nat × Nat
  | [], line, column => (line, column)
  | c :: s, line, column => if c = '\n' then lineColumn s (line + 1) 1 else lineColumn s line (column + 1)

/-- The message about a fault in a text. -/
def Fault.message (f : Fault) (text : Text.Points) : String :=
  match f.problem with
  | .longInteger _ | .deepList | .deepObject => f.problem.text
  | p =>
    let place := text.length - f.rest.length
    let (line, column) := lineColumn (text.take place) 1 1
    s!"{p.text}: line {line} column {column} (char {place})"

end SchemaCatalog.Json
