/-
  Identifiers of namespaces and tables.

  Identifiers are taken apart by the library that the catalog is written for, and this is what is assumed of
  it.  An identifier is a dotted name or a list of parts.  The two can differ: a part may hold dots itself, and
  a list may be empty, which a name never is.  The parts but the last name the namespace of a table, the
  last one names the table.
-/
import SchemaCatalog.Failure
import SchemaCatalog.Text.Cut

namespace SchemaCatalog

/-- The name of a namespace or a table. -/
inductive Identifier where
  | name (s : String)
  | parts (ps : List String)

namespace Identifier

/-- The parts of an identifier. -/
def toParts : Identifier → List String
  | .name s => Text.splitDots s
  | .parts ps => ps

/-- The identifier as a dotted name. -/
def toText : Identifier → String
  | .name s => s
  | .parts ps => Text.joinDots ps

/-- The dotted name of the namespace of a table. -/
def tableNamespace (i : Identifier) : String := Text.joinDots i.toParts.dropLast

/-- The name of a table in its namespace; the empty identifier has none. -/
def tableName (i : Identifier) : Except Failure String :=
  match i.toParts.getLast? with
  | some s => .ok s
  | none => .error .outOfRange

/-- Joining the parts of an identifier gives its dotted name. -/
theorem joinDots_toParts (i : Identifier) : Text.joinDots i.toParts = i.toText := by
  cases i with
  | name s => exact Text.joinDots_splitDots s
  | parts ps => rfl

end Identifier

end SchemaCatalog
