/-
  Sessions: one client, opened for one operation and closed at its end.

  A session turns every failure of the system below it (a refused connection, a timeout) into the one
  failure that the operations know, a registry that cannot be reached.  It is closed exactly once, however
  its body ends; if the closing fails, that failure takes the place of the body's outcome and is passed on
  as it is.

  What a body has done so far may matter even when it fails: the number of versions deleted, the entries
  read.  `inSession` therefore runs bodies that give, beside their outcome, what is kept in any case.
-/
import SchemaCatalog.Dialogue

namespace SchemaCatalog

/-- A client opened on an endpoint. -/
structure Session where
  endpoint : Endpoint
  client : Client

/-- A failure as the operations see it: one of the system means that the registry is out of reach. -/
def Endpoint.told (e : Endpoint) (f : Failure) : Failure :=
  if f.kind.isA .system then .unreachable e.url f else f

namespace Session

/-- Opens a session. -/
def start (e : Endpoint) : Dialogue (Except Failure Session) := do
  .say .debug .session
    ("Opening registry session to " ++ e.url ++ " using namespace " ++ e.ns.shown)
  match ← Dialogue.request (.opening e) with
  | .ok client => return .ok ⟨e, client⟩
  | .error f => return .error (e.told f)

/-- Closes a session whose client can be closed. -/
def close (s : Session) : Dialogue (Except Failure Unit) :=
  if s.client.closable then Dialogue.request (.closing s.client) else .done (.ok ())

/-- Makes a call in a session. -/
def call (s : Session) (c : Call) : Attempt c.Reply := ExceptT.mk do
  match ← Dialogue.request (.call s.client c) with
  | .ok r => return .ok r
  | .error f => return .error (s.endpoint.told f)

end Session

/-- Runs a body in a session of its own.  The first component is kept whatever fails; it is `start` if
the session cannot even be opened. -/
def inSession {κ α : Type} (e : Endpoint) (start : κ)
    (body : Session → Dialogue (κ × Except Failure α)) : Dialogue (κ × Except Failure α) := do
  match ← Session.start e with
  | .error f => return (start, .error f)
  | .ok s =>
    let (kept, outcome) ← body s
    match ← s.close with
    | .error f => return (kept, .error f)
    | .ok () => return (kept, outcome)

/-- Runs a body that keeps nothing in a session of its own. -/
def attemptInSession {α : Type} (e : Endpoint) (body : Session → Attempt α) : Attempt α :=
  ExceptT.mk do
    let (_, outcome) ← inSession e () fun s => do
      let outcome ← (body s).run
      return ((), outcome)
    return outcome

/-- Logs a line. -/
def Attempt.say (level : Level) (source : Source) (text : String) : Attempt Unit :=
  ExceptT.lift (Dialogue.say level source text)

/-- Goes on with another attempt after a failure of a kind; other failures stay. -/
def Attempt.handle {α : Type} (kind : Kind) (handler : Failure → Attempt α) (a : Attempt α) :
    Attempt α :=
  tryCatch a fun f => if f.kind.isA kind then handler f else throw f

end SchemaCatalog
