/-
  A listing of the catalog at one moment.

  The entries keep the order in which they were read.  Looking up goes by small letters; only texts have
  them, so the lookup fails as soon as it meets a table whose namespace is none.
-/
import SchemaCatalog.Snapshot.Entry

namespace SchemaCatalog

/-- The entries of a listing, in order. -/
structure Snapshot where
  entries : List Entry

namespace Snapshot

/-- The number of entries. -/
def size (s : Snapshot) : Nat := s.entries.length

/-- Adds a name that is not there yet at the end. -/
def addName (names : List Value) (name : Value) : List Value :=
  if names.any fun n => n.same name then names else names ++ [name]

/-- The namespaces of the entries, each once. -/
def namespaces (s : Snapshot) : List Value := (s.entries.map Entry.ns).foldl addName []

/-- Whether two values are the same in small letters; fails if one has none. -/
def sameName (v w : Value) : Except Failure Bool :=
  match v.lower?, w.lower? with
  | some v, some w => .ok (v.same w)
  | _, _ => .error .lacking

/-- The tables among the entries whose namespace has a name. -/
def tablesIn (ns : Value) : List Entry → Except Failure (List Entry)
  | [] => .ok []
  | e :: es =>
    if e.isNamespace then tablesIn ns es
    else
      match sameName e.ns ns with
      | .error f => .error f
      | .ok here =>
        match tablesIn ns es with
        | .error f => .error f
        | .ok tables => .ok (if here then e :: tables else tables)

/-- The tables of a namespace. -/
def tables (s : Snapshot) (ns : Value) : Except Failure (List Entry) := tablesIn ns s.entries

/-- The first of some tables that has a name. -/
def firstNamed (name : Value) : List Entry → Except Failure (Option Entry)
  | [] => .ok none
  | e :: es =>
    match sameName e.table name with
    | .error f => .error f
    | .ok true => .ok (some e)
    | .ok false => firstNamed name es

/-- The table with a name in a namespace. -/
def find? (s : Snapshot) (ns name : Value) : Except Failure (Option Entry) :=
  match s.tables ns with
  | .error f => .error f
  | .ok tables => firstNamed name tables

/-- The listing as flat objects. -/
def flat (s : Snapshot) : Value := .list (s.entries.map Entry.flat)

/-- The listing as a configuration; nothing if there is nothing to configure. -/
def config (s : Snapshot) : Value :=
  if s.entries.isEmpty then .object []
  else .object [(.text "schemas", .list (s.entries.map Entry.config))]

end Snapshot

end SchemaCatalog
