/-
  The values found in documents and properties, and when two of them are the same.

  A document holds nulls, booleans, integers of any size, doubles, texts, lists and objects; a caller may
  also hand over raw bytes, fixed or in a buffer.  A text is a string, or torn.  The members of an object are
  kept in order, and their keys may be any scalar.

  Sameness goes by content.  The three kinds of number are one: `true`, `1` and `1.0` are the same value.
  Lists are the same item by item, objects member by member in whatever order.

  What is no number comes in two sorts.  Documents write it as a word, like `null` and `true`, so there it
  is one value, the same wherever it stands.  A double that is no number can only come from a caller, and
  it differs even from itself.
-/
import SchemaCatalog.Text.Case
import SchemaCatalog.Decimal.Binary

namespace SchemaCatalog

/-- A value of a document or a property. -/
inductive Value where
  | null
  | bool (b : Bool)
  | int (i : Int)
  | float (x : Float)
  /-- The word `NaN` of documents. -/
  | nan
  | text (s : String)
  /-- A text with a half of a character in it. -/
  | torn (t : Text.Torn)
  | list (items : List Value)
  | object (members : List (Value × Value))
  | bytes (content : List UInt8)
  | buffer (content : List UInt8)
deriving Inhabited

namespace Value

/-! ## Sameness -/

/-- The integer that a value stands for; booleans count as one and zero. -/
def int? : Value → Option Int
  | .bool b => some (if b then 1 else 0)
  | .int i => some i
  | _ => none

/-- The bytes that a value holds. -/
def bytes? : Value → Option (List UInt8)
  | .bytes b | .buffer b => some b
  | _ => none

/-- Sameness of two values that are neither lists nor objects. -/
def sameScalar : Value → Value → Bool
  | .null, .null => true
  | .nan, .nan => true
  | .text s, .text t => s == t
  | .torn s, .torn t => s == t
  | .float x, .float y => x == y
  | .float x, v | v, .float x => v.int?.any (Decimal.isInt x)
  | v, w =>
    match v.int?, w.int?, v.bytes?, w.bytes? with
    | some i, some j, _, _ => i == j
    | _, _, some b, some c => b == c
    | _, _, _, _ => false

mutual

/-- Whether two values have the same content. -/
def same : Value → Value → Bool
  | .list xs, .list ys => sameItems xs ys
  | .object ms, .object ns => ms.length == ns.length && sameMembers ms ns
  | v, w => v.sameScalar w
termination_by structural v => v

/-- Whether two lists have the same items in the same order. -/
def sameItems : List Value → List Value → Bool
  | [], [] => true
  | x :: xs, y :: ys => same x y && sameItems xs ys
  | _, _ => false
termination_by structural xs => xs

/-- Whether each member of the first object is in the second. -/
def sameMembers : List (Value × Value) → List (Value × Value) → Bool
  | [], _ => true
  | m :: ms, ns => sameMember m ns && sameMembers ms ns
termination_by structural ms => ms

/-- Whether an object holds a member. -/
def sameMember : Value × Value → List (Value × Value) → Bool
  | (k, v), ns =>
    match ns.find? fun n => same k n.1 with
    | some n => same v n.2
    | none => false
termination_by structural m => m

end

/-! ## Kinds of value -/

/-- Whether the value can be the key of a member: everything that cannot change. -/
def isKey : Value → Bool
  | .list _ | .object _ | .buffer _ => false
  | _ => true

/-- The string that a value is. -/
def text? : Value → Option String
  | .text s => some s
  | _ => none

/-- The value that a text is. -/
def ofPoints (ps : Text.Points) : Value :=
  if h : ps.any Text.CodePoint.isHalf = true then .torn ⟨ps, h⟩ else .text (Text.shown ps)

/-- The text that a value is, whole or torn. -/
def points? : Value → Option Text.Points
  | .text s => some s
  | .torn t => some t.points
  | _ => none

/-- The value in small letters; only text and bytes have any. -/
def lower? : Value → Option Value
  | .text s => some (.text (Text.lower s))
  | .torn t => some (.torn t.lower)
  | .bytes b => some (.bytes (b.map Text.lowerByte))
  | .buffer b => some (.buffer (b.map Text.lowerByte))
  | _ => none

/-- Two texts are the same value exactly when they are equal. -/
@[simp] theorem same_text (s t : String) : same (.text s) (.text t) = (s == t) := by
  simp [same, sameScalar]

end Value

end SchemaCatalog
