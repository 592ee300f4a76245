/-
  The tables of the catalog, which are types of schemas in the groups of the registry.

  A table is created by storing its document as a new version.  It is dropped by deleting all versions of
  all types that have its name in any letter case, one by one; dropping never fails for reasons of the
  registry, it tells how many versions it has deleted when it stops.
-/
import SchemaCatalog.Namespaces
import SchemaCatalog.Document.Encode

namespace SchemaCatalog.Tables

variable [Json.Nesting]

/-- The schema under which a table is stored. -/
def schemaOf (name document : String) : SchemaInfo :=
  ⟨name, jsonFormat, .bytes (Text.Utf8.encode document.toList), []⟩

/-- Creates a table.  Its document is written before the registry is asked for anything. -/
def create (e : Endpoint) (ns name : String) (columns : List Column) (properties : Members) :
    Attempt Version := do
  let document ← Document.encodeTable ⟨.text ns, .text name, columns, properties⟩
  attemptInSession e fun s => do
    .say .info .operations
      ("Create table schema " ++ name ++ " in group " ++ ns ++ " at " ++ Namespaces.whereabouts e)
    .say .debug .operations ("Add schema: " ++ document)
    s.call (.addSchema ns (schemaOf name document))

/-! ## Dropping -/

/-- Whether a stored schema belongs to the table with a name. -/
def isNamed (name : String) (s : StoredSchema) : Bool := Text.sameName s.info.type name

/-- Deletes schemas one after the other: how many are gone, and what stopped it. -/
def deleteEach (s : Session) (group : String) (deleted : Nat) :
    List StoredSchema → Dialogue (Nat × Except Failure Unit)
  | [] => .done (deleted, .ok ())
  | v :: vs => do
    .say .info .operations ("Delete schema version: " ++ v.version.shown)
    match ← (s.call (.deleteVersion group v.version)).run with
    | .error f => return (deleted, .error f)
    | .ok _ => deleteEach s group (deleted + 1) vs

/-- Deletes the schemas of a table in a session. -/
def dropIn (s : Session) (ns name : String) : Dialogue (Nat × Except Failure Unit) := do
  match ← (s.call (.getSchemas ns)).run with
  | .error f => return (0, .error f)
  | .ok schemas => deleteEach s ns 0 (List.filter (isNamed name) schemas)

/-- Drops a table; gives the number of versions deleted. -/
def drop (e : Endpoint) (ns name : String) : Attempt Nat := ExceptT.mk do
  .say .info .operations ("Dropping table " ++ name ++ " on schema " ++ ns)
  let (deleted, outcome) ← inSession e 0 fun s => dropIn s ns name
  match outcome with
  | .ok () => return .ok deleted
  | .error f =>
    if f.kind.isA .registryNotFound then
      .say .info .operations ("Schema " ++ ns ++ " not found while dropping " ++ name ++ ": " ++ f.message)
      return .ok deleted
    else if f.kind.isA .registryUnreachable then
      .say .warning .operations ("Cannot connect to schema registry: " ++ f.message)
      return .ok deleted
    else return .error f

/-! ## Looking up -/

/-- Looks for a table in a session: in the first group that has the namespace's name in any letter case. -/
def hasIn (s : Session) (ns name : String) : Attempt Bool := do
  let groups : List (String × GroupProperties) ← s.call .listGroups
  if groups.isEmpty then
    .say .debug .operations "No groups found at schema registry"
    return false
  match groups.find? fun g => Text.sameName g.1 ns with
  | none => return false
  | some g =>
    let schemas : List StoredSchema ← s.call (.getSchemas g.1)
    if schemas.any (isNamed name) then
      .say .debug .operations ("Found table: " ++ name)
      return true
    else return false

/-- Whether there is a table with a name, in whatever letter case. -/
def has (e : Endpoint) (ns name : String) : Attempt Bool :=
  Attempt.handle .registryNotFound
    (fun _ => do
      .say .debug .operations ("Schema " ++ ns ++ " vanished while looking up " ++ name)
      return false)
    (Attempt.handle .registryUnreachable
      (fun f => do
        Namespaces.logUnreachable .operations f
        return false)
      (attemptInSession e fun s => hasIn s ns name))

end SchemaCatalog.Tables
