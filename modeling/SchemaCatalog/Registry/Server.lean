/-
  A registry server that can fail.

  The server answers requests from a registry in memory.  It can be down, and it can be given faults: each
  strikes at one kind of point, lets some passages go by, and then raises a failure for a number of times.
  Listings are read one element at a time, so a fault can also strike between two elements.

  Every request is recorded before anything can go wrong with it.  Then come the faults of its kind, then
  the server's being down, then the registry itself.  A server that is down still starts to list its
  groups and fails at the first element; opening and closing do not need the server at all.
-/
import SchemaCatalog.Registry.Basic

namespace SchemaCatalog

/-- Where a fault can strike. -/
inductive Point where
  | opening
  | closing
  | listGroups
  | addGroup
  | removeGroup
  | getSchemas
  | addSchema
  | deleteVersion
  | latestVersion
  /-- Before each listed group and after the last. -/
  | eachGroup
  /-- Before each listed schema and after the last. -/
  | eachSchema
deriving DecidableEq

/-- The point at which a call can be struck. -/
def Call.point : Call → Point
  | .listGroups => .listGroups
  | .addGroup .. => .addGroup
  | .removeGroup _ => .removeGroup
  | .getSchemas _ => .getSchemas
  | .addSchema .. => .addSchema
  | .deleteVersion .. => .deleteVersion
  | .latestVersion .. => .latestVersion

/-- A fault: where it strikes, for which group (any if none is given), what it raises, how many passages
it lets go by, and how often it strikes. -/
structure Fault where
  point : Point
  group? : Option String
  failure : Failure
  skip : Nat
  times : Nat

/-- Whether a fault can strike at a point of a call about a group. -/
def Fault.isAt (f : Fault) (point : Point) (group? : Option String) : Bool :=
  f.point == point && (f.group?.isNone || f.group? == group?)

/-- What the faults do at a point: the failure raised by the first that is ready, and the faults after
this passage. -/
def strike (point : Point) (group? : Option String) : List Fault → Option Failure × List Fault
  | [] => (none, [])
  | f :: fs =>
    if f.isAt point group? then
      if 0 < f.skip then
        let (e, fs) := strike point group? fs
        (e, { f with skip := f.skip - 1 } :: fs)
      else if 0 < f.times then (some f.failure, { f with times := f.times - 1 } :: fs)
      else
        let (e, fs) := strike point group? fs
        (e, f :: fs)
    else
      let (e, fs) := strike point group? fs
      (e, f :: fs)

/-- A registry server: its registry, whether it is down, whether its clients can be closed, its faults,
how many clients were opened, and the requests it was sent, the last first. -/
structure Server where
  registry : Registry
  down : Bool
  closable : Bool
  faults : List Fault
  opened : Nat
  requests : List Request

namespace Server

/-- A server with an empty registry. -/
def start (closable : Bool) : Server := ⟨.empty, false, closable, [], 0, []⟩

/-- What a server that is down answers. -/
def refused : Failure := .raised .connectionRefused "Connection refused"

/-- Passes a point where faults can strike. -/
def pass (point : Point) (group? : Option String) (s : Server) : Option Failure × Server :=
  let (e, faults) := strike point group? s.faults
  (e, { s with faults })

/-- Passes a point before each of some elements and once more at their end. -/
def passEach (point : Point) (group? : Option String) : Nat → Server → Option Failure × Server
  | 0, s => s.pass point group?
  | n + 1, s =>
    match s.pass point group? with
    | (some e, s) => (some e, s)
    | (none, s) => passEach point group? n s

/-- The answer of the registry, and the registry afterwards in the server. -/
def act (c : Call) (s : Server) : Except Failure c.Reply × Server :=
  let (r, registry) := s.registry.perform c
  (r, { s with registry })

/-- The answer to a call that no fault has struck so far.  The elements of a listing are passed one by
one. -/
def reply : (c : Call) → Server → Except Failure c.Reply × Server
  | .listGroups, s =>
    if s.down then (.error refused, s)
    else
      match s.passEach .eachGroup none s.registry.groups.length with
      | (some e, s) => (.error e, s)
      | (none, s) => s.act .listGroups
  | .getSchemas group, s =>
    if s.down then (.error refused, s)
    else
      match s.registry.findGroup group with
      | .error e => (.error e, s)
      | .ok g =>
        match s.passEach .eachSchema (some group) g.schemas.length with
        | (some e, s) => (.error e, s)
        | (none, s) => s.act (.getSchemas group)
  | c, s => if s.down then (.error refused, s) else s.act c

/-- The answer to a request, and the server afterwards. -/
def answer (request : Request) (s : Server) : Except Failure request.Reply × Server :=
  let s := { s with requests := request :: s.requests }
  match request with
  | .opening _ =>
    match s.pass .opening none with
    | (some e, s) => (.error e, s)
    | (none, s) => (.ok ⟨s.opened, s.closable⟩, { s with opened := s.opened + 1 })
  | .closing _ =>
    match s.pass .closing none with
    | (some e, s) => (.error e, s)
    | (none, s) => (.ok (), s)
  | .call _ c =>
    match s.pass c.point c.group? with
    | (some e, s) => (.error e, s)
    | (none, s) => s.reply c

end Server

end SchemaCatalog
