/-
  How messages show a value.

  A text stands for itself, but inside a list or an object it is quoted.  Everything else looks the same
  in both places: `None`, `True`, `False`, numbers, items between brackets, members between braces.

  Messages are strings, so a half of a character that stands for itself is shown by U+FFFD in them.
-/
import SchemaCatalog.Value.Basic
import SchemaCatalog.Text.Quoted
import SchemaCatalog.Decimal.Layout

namespace SchemaCatalog.Value

mutual

/-- The look of a value inside another. -/
def inner : Value → String
  | .null => "None"
  | .bool b => if b then "True" else "False"
  | .int i => String.ofList (Decimal.intText i)
  | .float x => String.ofList (Decimal.text .plain x)
  | .nan => Decimal.Words.plain.notANumber
  | .text s => Text.quoted s
  | .torn t => Text.quotedPoints t.points
  | .list items => "[" ++ ", ".intercalate (innerItems items) ++ "]"
  | .object members => "\x7b" ++ ", ".intercalate (innerMembers members) ++ "\x7d"
  | .bytes b => Text.quotedBytes b
  | .buffer b => Text.quotedBuffer b
termination_by structural v => v

/-- The looks of the items of a list. -/
def innerItems : List Value → List String
  | [] => []
  | x :: xs => inner x :: innerItems xs
termination_by structural xs => xs

/-- The looks of the members of an object. -/
def innerMembers : List (Value × Value) → List String
  | [] => []
  | m :: ms => innerMember m :: innerMembers ms
termination_by structural ms => ms

/-- The look of a member. -/
def innerMember : Value × Value → String
  | (k, v) => inner k ++ ": " ++ inner v
termination_by structural m => m

end

/-- The look of a value in a message. -/
def shown : Value → String
  | .text s => s
  | .torn t => Text.shown t.points
  | v => v.inner

/-- The name of a value's type in a message. -/
def typeName : Value → String
  | .null => "NoneType"
  | .bool _ => "bool"
  | .int _ => "int"
  | .float _ | .nan => "float"
  | .text _ | .torn _ => "str"
  | .list _ => "list"
  | .object _ => "dict"
  | .bytes _ => "bytes"
  | .buffer _ => "bytearray"

end SchemaCatalog.Value
