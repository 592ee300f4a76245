/-
  The address of a registry.

  The properties of a catalog name the registry by a location of which only host and port count; both are
  required.  The registry may keep several sets of schemas apart by a namespace of its own, `default`
  unless the properties say otherwise.
-/
import SchemaCatalog.Uri.HostPort
import SchemaCatalog.Uri.Given
import SchemaCatalog.Failure
import SchemaCatalog.Value.Members

namespace SchemaCatalog

/-- A registry's host, port and namespace.  The host is a text, or bytes if the location is given in
bytes. -/
structure Endpoint where
  host : Value
  port : Nat
  ns : Value

namespace Endpoint

/-- The address as shown in messages. -/
def url (e : Endpoint) : String := "http://" ++ e.host.shown ++ ":" ++ toString e.port

/-- The text of a location in the properties.  Values that count as absent (null, false and zero) are
read as the empty text; a torn text is refused. -/
def uriText (uri : Value) : Except Failure (List Char) :=
  match uri with
  | .text s => .ok s.toList
  | .torn _ => .error (.invalidEndpoint uri)
  | .null | .bool false | .int 0 => .ok []
  | .float x => if x == 0 then .ok [] else .error .lacking
  | .bytes bs =>
    match Uri.asciiText? bs with
    | some s => .ok s
    | none => .error (.invalidEndpoint uri)
  | .list _ | .object _ | .buffer _ => .error .mistyped
  | .bool true | .int _ | .nan => .error .lacking

/-- Host and port of a location, if it has both. -/
def hostPort? (s : List Char) : Option (String × Nat) :=
  match Uri.parse? s with
  | none => none
  | some u =>
    let (host, port) := Uri.hostPort u.authority
    if host.isEmpty then none else (Uri.port? port).map fun n => (Uri.lowerHost host, n)

/-- The endpoint that the properties of a catalog describe. -/
def ofProperties (properties : Members) : Except Failure Endpoint :=
  match properties.find? "uri" with
  | none => .error (.missingProperty "uri")
  | some uri =>
    match uriText uri with
    | .error e => .error e
    | .ok s =>
      match hostPort? s with
      | none => .error (.invalidEndpoint uri)
      | some (host, port) =>
        .ok ⟨Uri.part uri host.toList, port, properties.findD "registry.namespace" (.text "default")⟩

end Endpoint

end SchemaCatalog
