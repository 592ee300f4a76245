/-
  The namespaces of the catalog, which are the groups of the registry.

  Creating a namespace that exists and dropping one that does not change nothing.  A registry that cannot
  be reached is taken for an empty one when names are listed or looked up.
-/
import SchemaCatalog.Session
import SchemaCatalog.Text.Case

namespace SchemaCatalog.Namespaces

/-- Where an operation takes place, as log lines tell it. -/
def whereabouts (e : Endpoint) : String := e.url ++ " using namespace " ++ e.ns.shown

/-- Logs that the registry cannot be reached. -/
def logUnreachable (source : Source) (f : Failure) : Attempt Unit :=
  .say .warning source ("Cannot connect to schema registry: " ++ f.message)

/-- Creates a namespace with an owner. -/
def create (e : Endpoint) (name : String) (owner : Value) : Attempt Unit :=
  attemptInSession e fun s => do
    .say .info .operations
      ("Create schema " ++ name ++ " with owner " ++ owner.shown ++ " at " ++ whereabouts e)
    s.call (.addGroup name (.ofOwner owner))

/-- Drops a namespace. -/
def drop (e : Endpoint) (name : String) : Attempt Unit :=
  attemptInSession e fun s => do
    .say .info .operations ("Drop schema " ++ name ++ " from " ++ whereabouts e)
    (s.call (.removeGroup name) : Attempt Unit).handle .registryNotFound fun _ =>
      .say .debug .operations ("Schema " ++ name ++ " does not exist, nothing to drop")

/-- The names of the groups of the registry. -/
def groupNames (e : Endpoint) : Attempt (List String) :=
  attemptInSession e fun s => do
    let groups : List (String × GroupProperties) ← s.call .listGroups
    return groups.map Prod.fst

/-- The names of all namespaces. -/
def names (e : Endpoint) : Attempt (List String) :=
  (groupNames e).handle .registryUnreachable fun f => do
    logUnreachable .operations f
    return []

/-- Whether there is a namespace with a name, in whatever letter case. -/
def has (e : Endpoint) (name : String) : Attempt Bool :=
  Attempt.handle .registryUnreachable
    (fun f => do
      logUnreachable .operations f
      return false)
    (do
      let groups ← groupNames e
      if groups.isEmpty then
        .say .debug .operations "No groups found at schema registry"
        return false
      return groups.any fun g => Text.sameName g name)

end SchemaCatalog.Namespaces
