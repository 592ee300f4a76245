/-
  Reading the whole catalog from the registry.

  The groups are read in the order in which they are listed, and the types of a group in the order in
  which they first appear among its versions.  A group without versions gives an entry for a namespace;
  every type gives an entry for a table, read from the document of its latest version.  The first document
  with something wrong in it ends the reading, and so does a registry that is lost or changes on the way: the
  entries read so far are the listing.  A document that nests too deep to be read is not handled, and the
  listing fails with it.
-/
import SchemaCatalog.Session
import SchemaCatalog.Snapshot.Basic

namespace SchemaCatalog.Snapshot

/-- The types of some versions, each at its first appearance. -/
def typesOf (schemas : List StoredSchema) : List String :=
  schemas.foldl
    (fun types s => if types.contains s.info.type then types else types ++ [s.info.type]) []

variable [Json.Nesting]

/-- Whether a document that is not read ends the reading: something is wrong with it. -/
def isHandled (why : Unreadable) : Bool := why.kind.isA .configuration || why.kind.isA .validation

/-- Reads the tables of a group, one type after the other: the entries, and whether to go on with the
next group. -/
def readTypes (s : Session) (group : String) :
    List String → Dialogue (List Entry × Except Failure Bool)
  | [] => .done ([], .ok true)
  | type :: types => do
    .say .debug .snapshot ("Found table in schema registry: " ++ type)
    match ← (s.call (.latestVersion group type)).run with
    | .error f => return ([], .error f)
    | .ok latest =>
      match Document.decode (StoredSchema.info latest).data with
      | .error why =>
        if isHandled why then
          .say .error .snapshot ("Cannot decode schema " ++ group ++ "." ++ type ++ ": " ++ why.message)
          return ([], .ok false)
        else return ([], .error (.unreadable why))
      | .ok table =>
        let (entries, outcome) ← readTypes s group types
        return (Entry.ofTable table :: entries, outcome)

/-- Reads a group: its entries, and whether to go on with the next. -/
def readGroup (s : Session) (group : String) : Dialogue (List Entry × Except Failure Bool) := do
  match ← (s.call (.getSchemas group)).run with
  | .error f => return ([], .error f)
  | .ok schemas =>
    match typesOf schemas with
    | [] =>
      .say .debug .snapshot ("No tables defined for group: " ++ group)
      return ([Entry.ofNamespace group], .ok true)
    | types => readTypes s group types

/-- Reads groups one after the other: the entries, and what failed. -/
def readGroups (s : Session) : List String → Dialogue (List Entry × Except Failure Unit)
  | [] => .done ([], .ok ())
  | group :: groups => do
    .say .debug .snapshot ("Found group in schema registry: " ++ group)
    let (entries, outcome) ← readGroup s group
    match outcome with
    | .error f => return (entries, .error f)
    | .ok false => return (entries, .ok ())
    | .ok true =>
      let (more, outcome) ← readGroups s groups
      return (entries ++ more, outcome)

/-- Reads all groups in a session. -/
def readAll (s : Session) : Dialogue (List Entry × Except Failure Unit) := do
  match ← (s.call .listGroups).run with
  | .error f => return ([], .error f)
  | .ok groups =>
    let groups : List (String × GroupProperties) := groups
    if groups.isEmpty then
      .say .debug .snapshot ("No groups found at schema registry " ++ s.endpoint.url)
      return ([], .ok ())
    else readGroups s (groups.map Prod.fst)

/-- Reads the catalog. -/
def build (e : Endpoint) : Attempt Snapshot := ExceptT.mk do
  let (entries, outcome) ← inSession e [] readAll
  match outcome with
  | .ok () => return .ok ⟨entries⟩
  | .error f =>
    if f.kind.isA .registryUnreachable then
      .say .warning .snapshot ("Cannot connect to schema registry: " ++ f.message)
      return .ok ⟨entries⟩
    else if f.kind.isA .registryNotFound then
      .say .warning .snapshot ("Schema registry changed while reading it: " ++ f.message)
      return .ok ⟨entries⟩
    else return .error f

end SchemaCatalog.Snapshot
