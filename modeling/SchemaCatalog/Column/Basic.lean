/-
  Columns, and the kinds that their types name.

  A column is whatever a caller or a document says: its name and the name of its type may be any values.
  The functions here give the kind that a type names, or say that there is none; both catalog and
  document names are looked up without regard to letter case, and values that are no texts name nothing.
-/
import SchemaCatalog.Failure

namespace SchemaCatalog

/-- A column of a table. -/
structure Column where
  name : Value
  type : Value

/-- The column kind named by a value.  A buffer cannot even be looked up. -/
def ColumnKind.ofValue (type : Value) : Except Failure ColumnKind :=
  match type with
  | .buffer _ => .error .mistyped
  | v =>
    match v.text?.bind ColumnKind.ofName? with
    | some k => .ok k
    | none => .error (.unknownColumnType v)

/-- The document kind named by a value. -/
def JsonKind.read (type : Value) : Except Unreadable JsonKind :=
  match type.text?.bind JsonKind.ofName? with
  | some k => .ok k
  | none => .error (.unknownType type)

/-- The document kind named by a value of any origin.  A buffer cannot even be looked up. -/
def JsonKind.ofValue (type : Value) : Except Failure JsonKind :=
  match type with
  | .buffer _ => .error .mistyped
  | v => (JsonKind.read v).mapError .unreadable

/-- The column kind that a field type stands for. -/
def ColumnKind.ofField (type : FieldType) : Except Failure ColumnKind :=
  match type.column? with
  | some k => .ok k
  | none => .error (.unknownFieldType type)

end SchemaCatalog
