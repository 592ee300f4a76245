/-
  The members of an object as an ordered table.

  Looking up and writing go by sameness of keys.  Writing a key that is present changes its value and
  nothing else: the member keeps its place and the first spelling of its key.  A new key goes to the end.

  Only values that cannot change are keys.  `put` takes its key to be one, `put?` asks.
-/
import SchemaCatalog.Value.Basic

namespace SchemaCatalog

/-- The members of an object, in order. -/
abbrev Members := List (Value × Value)

namespace Members

/-- The value under a key. -/
def get? (k : Value) : Members → Option Value
  | [] => none
  | (k', v) :: rest => if k.same k' then some v else get? k rest

/-- Whether a key is present. -/
def has (k : Value) (m : Members) : Bool := (m.get? k).isSome

/-- Writes a value under a key. -/
def put (k v : Value) : Members → Members
  | [] => [(k, v)]
  | (k', v') :: rest => if k.same k' then (k', v) :: rest else (k', v') :: put k v rest

/-- Writes a value under a key, if the key can be one. -/
def put? (k v : Value) (m : Members) : Option Members :=
  if k.isKey then some (m.put k v) else none

/-- Writes one member after the other into a table. -/
def putAll (m : Members) (extra : List (Value × Value)) : Members :=
  extra.foldl (fun m kv => m.put kv.1 kv.2) m

/-- The table of a list of members: a repeated key has its first place and its last value. -/
def ofList (pairs : List (Value × Value)) : Members := putAll [] pairs

/-! ## Keys that are texts -/

/-- The value under a text. -/
def find? (k : String) (m : Members) : Option Value := m.get? (.text k)

/-- The value under a text, or another one. -/
def findD (k : String) (fallback : Value) (m : Members) : Value := (m.find? k).getD fallback

/-- What was written under a text is found there. -/
theorem get?_put_text (k : String) (v : Value) (m : Members) :
    (m.put (.text k) v).get? (.text k) = some v := by
  induction m with
  | nil => simp [put, get?]
  | cons e rest ih =>
    obtain ⟨k', v'⟩ := e
    by_cases h : (Value.text k).same k' = true
    · simp [put, get?, h]
    · simp [put, get?, h, ih]

end Members

end SchemaCatalog
