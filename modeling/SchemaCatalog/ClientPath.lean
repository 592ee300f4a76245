/-
  Naming a registry client by its dotted path: the module that holds it and its name there.

  Which modules are installed is not for the catalog to say, so they are a parameter.  A relative module
  (one whose name starts with a dot) has nothing to be relative to.
-/
import SchemaCatalog.Failure
import SchemaCatalog.Text.Cut

namespace SchemaCatalog

/-- An installed module and the clients in it. -/
structure ClientModule where
  name : String
  clients : List String

/-- The client at a path. -/
def findClient (installed : List ClientModule) (path : String) : Except Failure (ClientModule × String) :=
  let name := String.ofList (Text.afterLast '.' path.toList)
  match Text.beforeLast? '.' path.toList with
  | none | some [] => .error (.invalidClient path)
  | some (c :: rest) =>
    if c = '.' then .error .mistyped
    else match installed.find? fun m => m.name == String.ofList (c :: rest) with
      | some m => if m.clients.contains name then .ok (m, name) else .error (.unknownClient path)
      | none => .error (.unknownClient path)

/-- The client that a value names.  Nothing that is installed has a torn name.  Bytes cannot be cut at a dot,
and what is neither text nor bytes cannot be cut at all. -/
def clientNamed (installed : List ClientModule) (path : Value) :
    Except Failure (ClientModule × String) :=
  match path with
  | .text path => findClient installed path
  | .torn path => findClient [] (Text.shown path.points)
  | .bytes _ | .buffer _ => .error .mistyped
  | _ => .error .lacking

end SchemaCatalog
