/-
  What a client asks of a schema registry, and what it is answered.

  A registry holds groups, a group holds schemas under types, and each schema stored is one version of
  its type.  Calls are data here: `Call` lists them with their arguments and `Call.Reply` gives the type
  of the answer to each, so that the same operation can be run against any registry that answers calls.
  A client is opened on an endpoint before its first call and, if it can be, closed after its last;
  `Request` adds these two.
-/
import SchemaCatalog.Endpoint

namespace SchemaCatalog

/-- The properties of a group. -/
structure GroupProperties where
  format : String
  compatibility : String
  severalTypes : Bool
  properties : Members

/-- A schema as it is handed to a registry. -/
structure SchemaInfo where
  type : String
  format : String
  data : Value
  properties : Members

/-- What tells one stored schema from all others. -/
structure Version where
  type : String
  version : Nat
  id : Nat
deriving DecidableEq

/-- A schema in a registry. -/
structure StoredSchema where
  info : SchemaInfo
  version : Version

/-- The format of all schemas and groups of a catalog. -/
def jsonFormat : String := "Json"

/-- The group of a namespace: any JSON schemas, of any types. -/
def GroupProperties.ofOwner (owner : Value) : GroupProperties :=
  ⟨jsonFormat, "AllowAny", true, [(.text "owner", owner)]⟩

/-- The look of a version in a message. -/
def Version.shown (v : Version) : String :=
  "VersionInfo(type=" ++ Text.quoted v.type ++ s!", version={v.version}, id={v.id})"

/-- A call of a registry client. -/
inductive Call where
  | listGroups
  | addGroup (name : String) (properties : GroupProperties)
  | removeGroup (name : String)
  | getSchemas (group : String)
  | addSchema (group : String) (info : SchemaInfo)
  | deleteVersion (group : String) (version : Version)
  | latestVersion (group type : String)

/-- The answer to a call. -/
def Call.Reply : Call → Type
  | .listGroups => List (String × GroupProperties)
  | .addGroup .. | .removeGroup _ | .deleteVersion .. => Unit
  | .getSchemas _ => List StoredSchema
  | .addSchema .. => Version
  | .latestVersion .. => StoredSchema

/-- The group that a call is about. -/
def Call.group? : Call → Option String
  | .listGroups => none
  | .addGroup g _ | .removeGroup g | .getSchemas g | .addSchema g _ | .deleteVersion g _
  | .latestVersion g _ => some g

/-- An opened client, by its number, and whether it can be closed. -/
structure Client where
  number : Nat
  closable : Bool

/-- What is asked of the world outside the catalog. -/
inductive Request where
  | opening (endpoint : Endpoint)
  | closing (client : Client)
  | call (client : Client) (call : Call)

/-- The answer to a request. -/
def Request.Reply : Request → Type
  | .opening _ => Client
  | .closing _ => Unit
  | .call _ c => c.Reply

end SchemaCatalog
