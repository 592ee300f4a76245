/-
  A schema registry in memory.

  Groups keep the order of their creation and schemas the order of their addition.  The schemas of one
  type are numbered from zero, by how many of that type the group holds when one is added; besides, every
  schema ever stored has an id of its own.  Names of groups and types count exactly as spelled.
-/
import SchemaCatalog.Registry.Call

namespace SchemaCatalog

/-- A group with its schemas. -/
structure Group where
  name : String
  properties : GroupProperties
  schemas : List StoredSchema

/-- The groups of a registry and the next id. -/
structure Registry where
  groups : List Group
  nextId : Nat

namespace Registry

/-- A registry without groups. -/
def empty : Registry := ⟨[], 0⟩

/-- The group with a name. -/
def group? (r : Registry) (name : String) : Option Group := r.groups.find? fun g => g.name == name

/-- The group with a name, or the failure to have one. -/
def findGroup (r : Registry) (name : String) : Except Failure Group :=
  match r.group? name with
  | some g => .ok g
  | none => .error (.noGroup name)

/-- Changes the schemas of the group with a name. -/
def updateSchemas (r : Registry) (name : String) (f : List StoredSchema → List StoredSchema) : Registry :=
  { r with groups := r.groups.map fun g => if g.name == name then { g with schemas := f g.schemas } else g }

/-- Whether a stored schema is of a type. -/
def ofType (type : String) (s : StoredSchema) : Bool := s.info.type == type

/-- Adds a group at the end unless there is one of that name. -/
def addGroup (r : Registry) (name : String) (properties : GroupProperties) : Registry :=
  if (r.group? name).isSome then r
  else { r with groups := r.groups ++ [⟨name, properties, []⟩] }

/-- Removes the group with a name. -/
def removeGroup (r : Registry) (name : String) : Registry :=
  { r with groups := r.groups.filter fun g => !(g.name == name) }

/-- The schema that is stored when one is added to a group. -/
def newSchema (r : Registry) (g : Group) (info : SchemaInfo) : StoredSchema :=
  ⟨info, ⟨info.type, g.schemas.countP (ofType info.type), r.nextId⟩⟩

/-- Adds a schema to the end of a group. -/
def addSchema (r : Registry) (g : Group) (info : SchemaInfo) : Registry :=
  { r.updateSchemas g.name (· ++ [r.newSchema g info]) with nextId := r.nextId + 1 }

/-- Removes the schema with a version from a group. -/
def deleteVersion (r : Registry) (name : String) (version : Version) : Registry :=
  r.updateSchemas name fun ss => ss.filter fun s => !(s.version == version)

/-- The last schema of a type in a group. -/
def latest? (g : Group) (type : String) : Option StoredSchema := (g.schemas.filter (ofType type)).getLast?

/-- The answer to a call and the registry afterwards.  A call that fails changes nothing. -/
def perform (r : Registry) : (c : Call) → Except Failure c.Reply × Registry
  | .listGroups => (.ok (r.groups.map fun g => (g.name, g.properties)), r)
  | .addGroup name properties => (.ok (), r.addGroup name properties)
  | .removeGroup name =>
    match r.findGroup name with
    | .error e => (.error e, r)
    | .ok _ => (.ok (), r.removeGroup name)
  | .getSchemas name =>
    match r.findGroup name with
    | .error e => (.error e, r)
    | .ok g => (.ok g.schemas, r)
  | .addSchema name info =>
    match r.findGroup name with
    | .error e => (.error e, r)
    | .ok g => (.ok (r.newSchema g info).version, r.addSchema g info)
  | .deleteVersion name version =>
    match r.findGroup name with
    | .error e => (.error e, r)
    | .ok _ => (.ok (), r.deleteVersion name version)
  | .latestVersion name type =>
    match r.findGroup name with
    | .error e => (.error e, r)
    | .ok g =>
      match latest? g type with
      | some s => (.ok s, r)
      | none => (.error (.noSchema type name), r)

end Registry

end SchemaCatalog
