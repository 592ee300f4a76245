/-
  Writing a table as a registry document.

  A document is a JSON schema of the table's rows: one typed member per column, in order, a repeated
  column at its first place with its last type.  What a row schema cannot say (the table's name, where
  its files lie and how they are laid out) is itself written as JSON and kept as text in the comment of
  the document, so that every tool that reads row schemas still can.

  The checks come in a fixed order: format, location, the types of the columns.  What passes them can still
  have no written form, for what it holds or for how deep it nests.
-/
import SchemaCatalog.Document.Options
import SchemaCatalog.Column.Basic
import SchemaCatalog.Location
import SchemaCatalog.Json.Writer

namespace SchemaCatalog

/-- A table as its owner describes it. -/
structure Table where
  ns : Value
  name : Value
  columns : List Column
  properties : Members

namespace Document

/-- The key of the comment. -/
def commentKey : String := "$comment"

/-- The key of the members that describe the columns. -/
def columnsKey : String := "properties"

/-- Adds the members that describe columns.  Only a value that can be a key can name a column. -/
def columnMembers : List Column → Members → Except Failure Members
  | [], ms => .ok ms
  | c :: cs, ms =>
    match ColumnKind.ofValue c.type with
    | .error e => .error e
    | .ok kind =>
      match ms.put? c.name (.object [(.text "type", .text kind.json.name)]) with
      | some ms => columnMembers cs ms
      | none => .error .mistyped

/-- The description of a table kept in the comment. -/
def metadata (database tablename : Value) (location : Location) (format : FileFormat)
    (options : Members) : Value :=
  .object
    [(.text "database", database),
     (.text "tablename", tablename),
     (.text "sources", .object [(location.bucket, .list [location.path])]),
     (.text "hasHeaderRow", options.findD "has_header_row" (.text "false")),
     (.text "fieldDelimiter", options.findD "field_delimiter" (.text ",")),
     (.text "recordDelimiter", options.findD "record_delimiter" (.text "\n")),
     (.text "objectDataFormat", .text format.name)]

/-- A document with its comment and its columns. -/
def root (comment : String) (columns : Members) : Value :=
  .object
    [(.text commentKey, .text comment),
     (.text "description", .text "Format of row of data"),
     (.text "type", .text "object"),
     (.text columnsKey, .object columns)]

/-! ## Documents -/

variable [Json.Nesting]

/-- The written form of a value, or the failure to have one. -/
def written (v : Value) : Except Failure String :=
  match Json.write v with
  | .ok s => .ok (String.ofList s)
  | .error .type => .error .mistyped
  | .error .longInteger => .error .longInteger
  | .error .tooDeep => .error .tooDeep

/-- The document of a table, given its options by name and its location. -/
def encode (database tablename : Value) (columns : List Column) (options : Members)
    (location : Value) : Except Failure String :=
  match FileFormat.ofValue (options.findD "format" .null) with
  | .error e => .error e
  | .ok format =>
    match Location.ofValue location with
    | .error e => .error e
    | .ok location =>
      match columnMembers columns [] with
      | .error e => .error e
      | .ok members =>
        match written (metadata database tablename location format options) with
        | .error e => .error e
        | .ok comment => written (root comment members)

/-- The document of a table. -/
def encodeTable (t : Table) : Except Failure String :=
  match Options.normalize t.properties with
  | .error e => .error e
  | .ok options =>
    match FileFormat.ofValue (options.findD "format" .null) with
    | .error e => .error e
    | .ok _ =>
      match options.find? "external_location" with
      | none => .error (.noLocation t.ns t.name)
      | some location => encode t.ns t.name t.columns options location

end Document

end SchemaCatalog
