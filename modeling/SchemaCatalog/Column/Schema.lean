/-
  Table schemas: numbered fields with a type each.

  A schema describes a table to the engine that reads it.  Its types are richer than the catalog's five
  column kinds: there are many more primitive types, and lists, maps and records of other types.  Only
  five primitive types stand for a column kind.  The fields of one schema have different names; whoever makes
  a table names them by strings, but the name of a column in a document is any text.
-/
import SchemaCatalog.Column.Kind

namespace SchemaCatalog

/-- A field: its number, its name, whether it must be present, and its type. -/
structure Field (ν τ : Type) where
  id : Int
  name : ν
  required : Bool
  type : τ

/-- The type of a field. -/
inductive FieldType where
  | string
  | double
  | long
  | int
  | boolean
  /-- Any other primitive type, by name. -/
  | other (name : String)
  | list (element : FieldType)
  | map (key value : FieldType)
  | struct (fields : List (Field String FieldType))

namespace FieldType

mutual

/-- The notation of a type. -/
def text : FieldType → String
  | .string => "string"
  | .double => "double"
  | .long => "long"
  | .int => "int"
  | .boolean => "boolean"
  | .other name => name
  | .list element => "list<" ++ text element ++ ">"
  | .map key value => "map<" ++ text key ++ ", " ++ text value ++ ">"
  | .struct fields => "struct<" ++ ", ".intercalate (fieldTexts fields) ++ ">"
termination_by structural t => t

/-- The notations of the fields of a record. -/
def fieldTexts : List (Field String FieldType) → List String
  | [] => []
  | f :: fs => fieldText f :: fieldTexts fs
termination_by structural fs => fs

/-- The notation of a field. -/
def fieldText : Field String FieldType → String
  | ⟨id, name, required, type⟩ =>
    toString id ++ ": " ++ name ++ ": " ++ (if required then "required " else "optional ") ++ text type
termination_by structural f => f

end

/-- The primitive types that stand for a column kind. -/
def simple : List FieldType := [.string, .double, .long, .int, .boolean]

/-- The primitive type with a name. -/
def named (name : String) : FieldType := (simple.find? fun t => t.text == name).getD (.other name)

/-- The column kind that a type stands for. -/
def column? : FieldType → Option ColumnKind
  | .string => some .varchar
  | .double => some .double
  | .long => some .bigint
  | .int => some .integer
  | .boolean => some .boolean
  | _ => none

end FieldType

/-- The type of the fields that show columns of a kind. -/
def ColumnKind.field : ColumnKind → FieldType
  | .varchar => .string
  | .double => .double
  | .bigint => .long
  | .integer => .int
  | .boolean => .boolean

/-- A column kind is recovered from the type that shows it. -/
theorem FieldType.column?_field (k : ColumnKind) : k.field.column? = some k := by cases k <;> rfl

end SchemaCatalog
