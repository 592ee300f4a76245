/-
  Reading a registry document back as a table.

  Any program can store documents, so every shape of input is expected here: bytes that are no text, text
  that is no JSON, members that are missing or of another type, texts that are torn.  Reading gives a table
  or exactly one of the causes listed in `Unreadable`, the first in this order: the encoding, the JSON text,
  the two required members, the comment and the JSON text in it, the table's two names, and the columns one
  after the other.  Each of the two JSON texts may also nest deeper than there is room for.
-/
import SchemaCatalog.Column.Basic
import SchemaCatalog.Json.Reader
import SchemaCatalog.Document.Encode

namespace SchemaCatalog

/-- A table as a document describes it. -/
structure StoredTable where
  database : Value
  tablename : Value
  columns : List Column
  options : Members

namespace Document

/-- The options taken over from the comment, in this order. -/
def optionKeys : List String :=
  ["objectDataFormat", "hasHeaderRow", "hasFooterRow", "recordDelimiter", "fieldDelimiter", "sources"]

/-- The text of a document: a text, or bytes that are one. -/
def textOf (document : Value) : Except Unreadable Text.Points :=
  match document with
  | .text s => .ok s
  | .torn t => .ok t.points
  | .bytes b | .buffer b =>
    match Text.Utf8.decode b with
    | .error f => .error (.notUtf8 f)
    | .ok s => .ok (s.map .char)
  | v => .error (.notText v)

/-- The members of the object that a text writes. -/
def readPart [Json.Nesting] (part : Part) (text : Text.Points) : Except Unreadable Members :=
  match Json.read text with
  | .error f => .error (.ofFault part text f)
  | .ok (.object members) => .ok members
  | .ok _ => .error (.notObject part)

/-- The member of a part under a key that it must have. -/
def required (part : Part) (key : String) (members : Members) : Except Unreadable Value :=
  match members.find? key with
  | some v => .ok v
  | none => .error (.missing part key)

/-- The column described by a member. -/
def readColumn (member : Value × Value) : Except Unreadable Column :=
  match member.2 with
  | .object spec =>
    match Members.find? "type" spec with
    | none => .error (.untypedColumn member.1)
    | some type =>
      match JsonKind.read type with
      | .error e => .error e
      | .ok kind => .ok ⟨member.1, .text kind.column.name⟩
  | _ => .error (.untypedColumn member.1)

/-- The columns described by members. -/
def readColumns : Members → Except Unreadable (List Column)
  | [] => .ok []
  | m :: ms =>
    match readColumn m with
    | .error e => .error e
    | .ok c =>
      match readColumns ms with
      | .error e => .error e
      | .ok cs => .ok (c :: cs)

/-- The options of a comment, those that are there. -/
def readOptions (metadata : Members) : Members :=
  optionKeys.filterMap fun k => (metadata.find? k).map fun v => (.text k, v)

/-- The table that a document describes. -/
def decode [Json.Nesting] (document : Value) : Except Unreadable StoredTable := do
  let text ← textOf document
  let root ← readPart .document text
  let properties ← required .document columnsKey root
  let comment ← required .document commentKey root
  let comment ← match comment.points? with
    | some s => .ok s
    | none => .error (.notString commentKey)
  let metadata ← readPart .metadata comment
  let database ← required .metadata "database" metadata
  let tablename ← required .metadata "tablename" metadata
  let members ← match properties with
    | .object members => .ok members
    | _ => .error (.notMembers columnsKey)
  let columns ← readColumns members
  return ⟨database, tablename, columns, readOptions metadata⟩

end Document

end SchemaCatalog
