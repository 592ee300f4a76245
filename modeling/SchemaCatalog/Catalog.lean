/-
  The catalog: namespaces and tables over one registry.

  A catalog is configured by properties that name its registry and, unless a client is given to it, the
  client to use.  The names of properties are texts, and a few of them are taken.  Every operation opens
  sessions of its own, one after the other, so a registry can change between two steps of one operation.

  Namespaces and tables are looked up in any letter case, but written under the names given.
-/
import SchemaCatalog.Tables
import SchemaCatalog.Snapshot.Build
import SchemaCatalog.Identifier
import SchemaCatalog.ClientPath

namespace SchemaCatalog

/-- A catalog kept in the registry at an endpoint. -/
structure Catalog where
  endpoint : Endpoint

namespace Catalog

/-- The names under which a catalog holds what is its own; no property has one of them. -/
def ownNames : List String := ["self", "name", "client_factory"]

/-- Whether a value can be the name of a property. -/
def isPropertyName : Value → Bool
  | .text s => !ownNames.contains s
  | .torn _ => true
  | _ => false

/-- The catalog that properties describe, given the installed clients.  A client is looked for only if
none is given. -/
def ofProperties (installed : List ClientModule) (clientGiven : Bool) (properties : Members) :
    Except Failure Catalog :=
  if !properties.all fun p => isPropertyName p.1 then .error .mistyped
  else
    match Endpoint.ofProperties properties with
    | .error f => .error f
    | .ok e =>
      if clientGiven then .ok ⟨e⟩
      else
        match properties.find? "py-client-impl" with
        | none => .error .noClient
        | some path => (clientNamed installed path).map fun _ => ⟨e⟩

/-! ## Namespaces -/

/-- Creates a namespace; its owner is taken from the properties. -/
def createNamespace (c : Catalog) (ns : Identifier) (properties : Members) : Attempt Unit :=
  Namespaces.create c.endpoint ns.toText (properties.findD "owner" (.text ""))

/-- Drops a namespace. -/
def dropNamespace (c : Catalog) (ns : Identifier) : Attempt Unit :=
  Namespaces.drop c.endpoint ns.toText

/-- Whether a namespace exists. -/
def hasNamespace (c : Catalog) (ns : Identifier) : Attempt Bool :=
  Namespaces.has c.endpoint ns.toText

/-- Fails unless a namespace exists. -/
def requireNamespace (c : Catalog) (ns : Identifier) : Attempt Unit := do
  if ← c.hasNamespace ns then return ()
  throw (.noNamespace ns.toText)

/-- Whether a namespace lies directly below a parent, letter case aside. -/
def isChild (parent ns : List String) : Bool :=
  ns.length == parent.length + 1 &&
    (ns.take parent.length).map Text.lower == parent.map Text.lower

/-- The namespaces directly below one, or all of them below the empty one. -/
def listNamespaces (c : Catalog) (ns : Identifier) : Attempt (List (List String)) := do
  let parent := ns.toParts
  if !parent.isEmpty then c.requireNamespace ns
  let names ← Namespaces.names c.endpoint
  let all := names.map Text.splitDots
  return if parent.isEmpty then all else all.filter (isChild parent)

/-! ## Tables -/

variable [Json.Nesting]

/-- The columns of a new table: as they are, or by a schema. -/
inductive TableColumns where
  | columns (cs : List Column)
  | schema (s : Schema String)

/-- The columns that fields stand for. -/
def columnsOfFields : List (Field String FieldType) → Except Failure (List Column)
  | [] => .ok []
  | f :: fs =>
    match ColumnKind.ofField f.type with
    | .error e => .error e
    | .ok kind =>
      match columnsOfFields fs with
      | .error e => .error e
      | .ok cs => .ok (⟨.text f.name, .text kind.name⟩ :: cs)

/-- The columns of a new table. -/
def TableColumns.toColumns : TableColumns → Except Failure (List Column)
  | .columns cs => .ok cs
  | .schema s => columnsOfFields s.fields

/-- The properties of a new table; a location given apart from them takes its place among them. -/
def withLocation (location : Value) (properties : Members) : Members :=
  match location with
  | .null => properties
  | v => properties.put (.text "external_location") v

/-- Creates a table in a namespace that exists. -/
def createTable (c : Catalog) (i : Identifier) (columns : TableColumns) (location : Value)
    (properties : Members) : Attempt Version := do
  let ns := i.tableNamespace
  c.requireNamespace (.name ns)
  let columns ← columns.toColumns
  let name ← i.tableName
  Tables.create c.endpoint ns name columns (withLocation location properties)

/-- Drops a table. -/
def dropTable (c : Catalog) (i : Identifier) : Attempt Unit := do
  let name ← i.tableName
  let _ ← Tables.drop c.endpoint i.tableNamespace name

/-- Whether a table exists. -/
def hasTable (c : Catalog) (i : Identifier) : Attempt Bool := do
  let name ← i.tableName
  Tables.has c.endpoint i.tableNamespace name

/-- Reads the whole catalog. -/
def snapshot (c : Catalog) : Attempt Snapshot := Snapshot.build c.endpoint

/-- The tables of a namespace that exists: its parts, and the name of each table. -/
def listTables (c : Catalog) (ns : Identifier) : Attempt (List (List String × Value)) := do
  c.requireNamespace ns
  let snapshot ← c.snapshot
  let parts := ns.toParts
  let tables ← snapshot.tables (.text (Text.joinDots parts))
  return tables.map fun e => (parts, e.table)

/-- The schema of a table. -/
def tableSchema (c : Catalog) (i : Identifier) : Attempt (Schema Text.Points) := do
  let ns := i.tableNamespace
  let name ← i.tableName
  let snapshot ← c.snapshot
  match ← snapshot.find? (.text ns) (.text name) with
  | none => throw (.noTable ns name)
  | some e => e.schema

end Catalog

end SchemaCatalog
