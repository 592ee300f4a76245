/-
  One entry of a listing of the catalog: a table, or a namespace without tables.

  An entry whose table name is null stands for a namespace.  It shows nothing but its name, and it has no
  schema.  The options of a table are laid over the fixed keys of its two shown forms, so an option with
  the name of such a key takes its place.
-/
import SchemaCatalog.Document.Decode
import SchemaCatalog.Column.Names

namespace SchemaCatalog

/-! ## Entries -/

/-- A table with its columns and options, or a namespace if the table name is null. -/
structure Entry where
  ns : Value
  table : Value
  columns : List Column
  options : Members

namespace Entry

/-- The entry of a namespace without tables. -/
def ofNamespace (name : String) : Entry := ⟨.text name, .null, [], []⟩

/-- The entry of a table read from its document. -/
def ofTable (t : StoredTable) : Entry := ⟨t.database, t.tablename, t.columns, t.options⟩

/-- Whether the entry stands for a namespace. -/
def isNamespace (e : Entry) : Bool :=
  match e.table with
  | .null => true
  | _ => false

/-- The name of the field that shows a column.  This is what is assumed of the library that makes the fields:
it takes every text as it is, torn or not, and bytes that are one; it refuses any other value. -/
def fieldName (name : Value) : Except Failure Text.Points :=
  match name.points? with
  | some s => .ok s
  | none =>
    match name.bytes?.map Text.Utf8.decode with
    | some (.ok s) => .ok (s.map .char)
    | _ => .error (.unfitName name)

/-- The optional fields that show columns, numbered from `n`. -/
def fieldsFrom (n : Nat) : List Column → Except Failure (List (Field Text.Points FieldType))
  | [] => .ok []
  | c :: cs =>
    match ColumnKind.ofValue c.type with
    | .error e => .error e
    | .ok kind =>
      match fieldName c.name with
      | .error e => .error e
      | .ok name =>
        match fieldsFrom (n + 1) cs with
        | .error e => .error e
        | .ok fs => .ok (⟨n, name, false, kind.field⟩ :: fs)

/-- The schema of a table. -/
def schema (e : Entry) : Except Failure (Schema Text.Points) :=
  if e.isNamespace then .error (.noTableInEntry e.ns)
  else
    match fieldsFrom 1 e.columns with
    | .error f => .error f
    | .ok fields => Schema.ofFields fields

/-! ## Shown forms -/

/-- The shown form of columns. -/
def shownColumns (cs : List Column) : Value :=
  .list (cs.map fun c => .object [(.text "name", c.name), (.text "type", c.type)])

/-- The entry as one flat object. -/
def flat (e : Entry) : Value :=
  if e.isNamespace then .object [(.text "schema_name", e.ns)]
  else
    .object (Members.putAll
      [(.text "schema_name", e.ns), (.text "table_name", e.table), (.text "columns", shownColumns e.columns)]
      e.options)

/-- The entry as a part of a configuration. -/
def config (e : Entry) : Value :=
  if e.isNamespace then
    .object [(.text "schemaTableName", .object [(.text "schema_name", e.ns)])]
  else
    .object
      [(.text "schemaTableName", .object [(.text "schema_name", e.ns), (.text "table_name", e.table)]),
       (.text "s3Table", .object (Members.putAll
          [(.text "name", e.table), (.text "columns", shownColumns e.columns)] e.options))]

end Entry

end SchemaCatalog
