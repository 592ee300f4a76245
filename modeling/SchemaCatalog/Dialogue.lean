/-
  Dialogues: operations as what they ask, log and answer.

  An operation of the catalog talks to a registry that other clients use too and that can fail at any
  request.  A `Dialogue` says what the operation does whatever it is told: it is done, or it logs a line
  and goes on, or it makes a request and goes on according to the reply.  The same dialogue can then be
  run against a registry in memory, against one that fails, or between the requests of other clients, by
  choosing who answers; nothing else about the operation is left open.

  A dialogue itself cannot fail.  An operation that can is a dialogue about an `Except`, an `Attempt`.
-/
import SchemaCatalog.Registry.Call

namespace SchemaCatalog

/-! ## Log lines -/

/-- How much a log line matters. -/
inductive Level where
  | debug
  | info
  | warning
  | error
deriving DecidableEq

/-- The part of the catalog that writes a log line. -/
inductive Source where
  | session
  | operations
  | snapshot
deriving DecidableEq

/-- A log line. -/
structure LogLine where
  level : Level
  source : Source
  text : String

/-! ## Dialogues -/

/-- What an operation does, for every way in which its requests may be answered. -/
inductive Dialogue (α : Type) where
  | done (a : α)
  | log (line : LogLine) (next : Dialogue α)
  | ask (request : Request) (next : Except Failure request.Reply → Dialogue α)

namespace Dialogue

/-- Goes on with another dialogue where one is done. -/
def bind {α β : Type} : Dialogue α → (α → Dialogue β) → Dialogue β
  | .done a, f => f a
  | .log line next, f => .log line (next.bind f)
  | .ask request next, f => .ask request fun reply => (next reply).bind f

instance : Monad Dialogue where
  pure := .done
  bind := bind

/-- Logs a line. -/
def say (level : Level) (source : Source) (text : String) : Dialogue Unit :=
  .log ⟨level, source, text⟩ (.done ())

/-- Makes a request. -/
def request (r : Request) : Dialogue (Except Failure r.Reply) := .ask r .done

@[simp] theorem bind_done {α β : Type} (a : α) (f : α → Dialogue β) : (done a).bind f = f a := rfl

theorem bind_done_right {α : Type} (d : Dialogue α) : d.bind done = d := by
  induction d with
  | done a => rfl
  | log line next ih => simp [bind, ih]
  | ask r next ih => simp [bind, ih]

theorem bind_assoc {α β γ : Type} (d : Dialogue α) (f : α → Dialogue β) (g : β → Dialogue γ) :
    (d.bind f).bind g = d.bind fun a => (f a).bind g := by
  induction d with
  | done a => rfl
  | log line next ih => simp [bind, ih]
  | ask r next ih => simp [bind, ih]

instance : LawfulMonad Dialogue :=
  LawfulMonad.mk' Dialogue bind_done_right (fun _ _ => rfl) bind_assoc

/-! ## Running a dialogue -/

/-- What a run leaves: the result, the state of whoever answered, and the lines logged. -/
structure Outcome (σ α : Type) where
  result : α
  state : σ
  log : List LogLine

/-- Runs a dialogue with someone who answers requests from a state. -/
def run {σ α : Type} (answer : (r : Request) → σ → Except Failure r.Reply × σ) :
    Dialogue α → σ → Outcome σ α
  | .done a, s => ⟨a, s, []⟩
  | .log line next, s =>
    let out := next.run answer s
    { out with log := line :: out.log }
  | .ask r next, s => (next (answer r s).1).run answer (answer r s).2

/-- A run of one dialogue after another is the run of the second from where the first ends. -/
theorem run_bind {σ α β : Type} (answer : (r : Request) → σ → Except Failure r.Reply × σ)
    (d : Dialogue α) (f : α → Dialogue β) (s : σ) :
    (d.bind f).run answer s =
      let first := d.run answer s
      let second := (f first.result).run answer first.state
      { second with log := first.log ++ second.log } := by
  induction d generalizing s with
  | done a => rfl
  | log line next ih => simp [bind, run, ih]
  | ask r next ih => simp [bind, run, ih]

end Dialogue

/-- A dialogue that may fail. -/
abbrev Attempt (α : Type) := ExceptT Failure Dialogue α

end SchemaCatalog
