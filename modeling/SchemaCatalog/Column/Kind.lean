/-
  The five kinds of column, and their names in the three places where they are written.

  The catalog calls them `VARCHAR`, `DOUBLE`, `BIGINT`, `INTEGER` and `BOOLEAN`, in whatever case the
  caller likes.  A stored document knows four JSON kinds, so the two integer kinds share one there and a
  kind read back is never `INTEGER`.
-/
import SchemaCatalog.Text.Case

namespace SchemaCatalog

/-- The kind of a column in the catalog. -/
inductive ColumnKind where
  | varchar
  | double
  | bigint
  | integer
  | boolean
deriving DecidableEq

/-- The kind of a member in a stored document. -/
inductive JsonKind where
  | string
  | number
  | integer
  | boolean
deriving DecidableEq

namespace JsonKind

/-- Every kind. -/
def all : List JsonKind := [.string, .number, .integer, .boolean]

/-- The name in a document. -/
def name : JsonKind → String
  | .string => "string"
  | .number => "number"
  | .integer => "integer"
  | .boolean => "boolean"

/-- The kind with a name; letter case does not matter. -/
def ofName? (s : String) : Option JsonKind := all.find? fun k => Text.lower s == k.name

/-- Every kind is found by its name. -/
theorem ofName?_name (k : JsonKind) : ofName? k.name = some k := by cases k <;> decide +kernel

/-- The column kind that is read from a document; integers are wide ones. -/
def column : JsonKind → ColumnKind
  | .string => .varchar
  | .number => .double
  | .integer => .bigint
  | .boolean => .boolean

end JsonKind

namespace ColumnKind

/-- Every kind. -/
def all : List ColumnKind := [.varchar, .double, .bigint, .integer, .boolean]

/-- The name in the catalog. -/
def name : ColumnKind → String
  | .varchar => "VARCHAR"
  | .double => "DOUBLE"
  | .bigint => "BIGINT"
  | .integer => "INTEGER"
  | .boolean => "BOOLEAN"

/-- The kind with a name; letter case does not matter. -/
def ofName? (s : String) : Option ColumnKind := all.find? fun k => Text.upper s == k.name

/-- The kind in a stored document. -/
def json : ColumnKind → JsonKind
  | .varchar => .string
  | .double => .number
  | .bigint => .integer
  | .integer => .integer
  | .boolean => .boolean

/-- What becomes of a kind that is stored and read back. -/
def stored : ColumnKind → ColumnKind
  | .integer => .bigint
  | k => k

/-- Every kind is found by its name. -/
theorem ofName?_name (k : ColumnKind) : ofName? k.name = some k := by cases k <;> decide +kernel

/-- A stored kind is read back as the same kind, the narrow integers as wide ones. -/
theorem column_json (k : ColumnKind) : k.json.column = k.stored := by cases k <;> rfl

end ColumnKind

end SchemaCatalog
