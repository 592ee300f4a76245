/-
  What an operation can ask for.

  A dialogue is the same whoever answers it, so the requests that it can make are a matter of the dialogue
  alone.  `AsksOnly P` says that all of them are of the sort `P`, whatever the answers before; it is built
  up the way a dialogue is, and attempts and sessions have their rules from that.

  Playing such a dialogue keeps every invariant that the answers to requests of the sort keep
  (`AsksOnly.play`).  Two things follow for servers, with any faults: an operation that only reads leaves the
  registry as it is, and the requests that a server has recorded after an operation are those recorded
  before and, on top of them, requests of its sort.
-/
import SchemaCatalog.Namespaces
import SchemaCatalog.Proofs.Registry.Server

namespace SchemaCatalog

variable {α β κ : Type} {P : Request → Prop}

/-! ## Dialogues -/

/-- Every request that a dialogue can make is of the sort `P`. -/
inductive Dialogue.AsksOnly (P : Request → Prop) : Dialogue α → Prop
  | done (a : α) : AsksOnly P (.done a)
  | log (line : LogLine) {next : Dialogue α} (hnext : AsksOnly P next) : AsksOnly P (.log line next)
  | ask (r : Request) {next : Except Failure r.Reply → Dialogue α} (hr : P r)
    (hnext : ∀ reply, AsksOnly P (next reply)) : AsksOnly P (.ask r next)

namespace Dialogue.AsksOnly

theorem say (level : Level) (source : Source) (text : String) :
    AsksOnly P (Dialogue.say level source text) := .log _ (.done ())

theorem request {r : Request} (hr : P r) : AsksOnly P (Dialogue.request r) := .ask r hr .done

/-- What two dialogues ask one after the other is asked by one of them. -/
theorem bind {d : Dialogue α} {f : α → Dialogue β} (hd : d.AsksOnly P) (hf : ∀ a, (f a).AsksOnly P) :
    (d >>= f).AsksOnly P := by
  show (d.bind f).AsksOnly P
  induction hd with
  | done a => exact hf a
  | log line _ ih => exact .log line ih
  | ask r hr _ ih => exact .ask r hr ih

/-- What answers to requests of the sort keep, the dialogue keeps. -/
theorem play {σ : Type} {answer : (r : Request) → σ → Except Failure r.Reply × σ} {I : σ → Prop}
    (hI : ∀ r s, P r → I s → I (answer r s).2) {d : Dialogue α} (hd : d.AsksOnly P) {s : σ} (hs : I s) :
    I (d.play answer s).2 := by
  induction hd generalizing s with
  | done a => exact hs
  | log line _ ih => exact ih hs
  | ask r hr _ ih => exact ih _ (hI r s hr hs)

end Dialogue.AsksOnly

/-! ## Attempts -/

/-- Every request that an attempt can make is of the sort `P`. -/
def Attempt.AsksOnly (P : Request → Prop) (a : Attempt α) : Prop := Dialogue.AsksOnly P a.run

namespace Attempt.AsksOnly

theorem pure (a : α) : AsksOnly P (Pure.pure a : Attempt α) := .done _

theorem throw (f : Failure) : AsksOnly P (throw f : Attempt α) := .done _

theorem say (level : Level) (source : Source) (text : String) :
    AsksOnly P (Attempt.say level source text) := .log _ (.done _)

/-- What is known already is not asked for. -/
theorem lift (x : Except Failure α) : AsksOnly P (liftM x : Attempt α) := by
  cases x <;> exact .done _

/-- What is known without asking decides how to go on. -/
theorem lift_bind {x : Except Failure α} {f : α → Attempt β} (hf : ∀ a, x = .ok a → AsksOnly P (f a)) :
    AsksOnly P ((liftM x : Attempt α) >>= f) := by
  cases x with
  | error e => exact .done _
  | ok a => exact hf a rfl

theorem bind {a : Attempt α} {f : α → Attempt β} (ha : AsksOnly P a) (hf : ∀ x, AsksOnly P (f x)) :
    AsksOnly P (a >>= f) := by
  show Dialogue.AsksOnly P (a >>= f).run
  rw [ExceptT.run_bind]
  refine Dialogue.AsksOnly.bind ha fun x => ?_
  cases x with
  | error e => exact .done _
  | ok x => exact hf x

/-- A handler may ask for more of the same. -/
theorem handle {kind : Kind} {handler : Failure → Attempt α} {a : Attempt α} (ha : AsksOnly P a)
    (hhandler : ∀ f, AsksOnly P (handler f)) : AsksOnly P (a.handle kind handler) := by
  show Dialogue.AsksOnly P (ExceptT.run (tryCatch a _))
  rw [ExceptT.run_tryCatch]
  refine Dialogue.AsksOnly.bind ha fun x => ?_
  cases x with
  | ok x => exact .done _
  | error e =>
    show AsksOnly P (if e.kind.isA kind then handler e else _)
    split
    · exact hhandler e
    · exact throw e

/-- A call asks for nothing but itself. -/
theorem call {session : Session} {c : Call} (hc : P (.call session.client c)) :
    AsksOnly P (session.call c) := by
  refine Dialogue.AsksOnly.bind (.request hc) fun x => ?_
  cases x <;> exact .done _

end Attempt.AsksOnly

/-! ## Sessions -/

section Sessions

variable {e : Endpoint} (hopening : P (.opening e)) (hclosing : ∀ client, P (.closing client))
include hopening hclosing

/-- A session is opened and closed, besides what its body asks. -/
theorem asksOnly_inSession {start : κ} {body : Session → Dialogue (κ × Except Failure α)}
    (hbody : ∀ session, (body session).AsksOnly P) : (inSession e start body).AsksOnly P := by
  have hstart : (Session.start e).AsksOnly P := by
    refine .bind (.say _ _ _) fun _ => .bind (.request hopening) fun x => ?_
    cases x <;> exact .done _
  have hclose : ∀ session : Session, session.close.AsksOnly P := by
    rintro ⟨e', number, closable⟩
    cases closable with
    | true => exact .request (hclosing ⟨number, true⟩)
    | false => exact .done _
  refine .bind hstart fun x => ?_
  cases x with
  | error f => exact .done _
  | ok session =>
    refine .bind (hbody session) fun out => .bind (hclose session) fun x => ?_
    cases x <;> exact .done _

/-- A session adds the opening and the closing of its client to what its body asks. -/
theorem asksOnly_attemptInSession {body : Session → Attempt α}
    (hbody : ∀ session, Attempt.AsksOnly P (body session)) :
    Attempt.AsksOnly P (attemptInSession e body) := by
  refine Dialogue.AsksOnly.bind ?_ fun _ => .done _
  exact asksOnly_inSession hopening hclosing fun session => .bind (hbody session) fun _ => .done _

end Sessions

/-! ## Reading -/

/-- Whether a request leaves the registry as it is. -/
def Request.IsReading : Request → Prop
  | .opening _ | .closing _ => True
  | .call _ c => c.isReading = true

/-- Listing the groups only reads. -/
theorem Namespaces.groupNames_asks (e : Endpoint) : Attempt.AsksOnly Request.IsReading (groupNames e) := by
  refine asksOnly_attemptInSession trivial (fun _ => trivial) fun session => ?_
  exact .bind (.call rfl) fun _ => .pure _

theorem Namespaces.names_asks (e : Endpoint) : Attempt.AsksOnly Request.IsReading (names e) :=
  .handle (groupNames_asks e) fun _ => .bind (.say _ _ _) fun _ => .pure _

/-- Looking for a namespace only reads. -/
theorem Namespaces.has_asks (e : Endpoint) (name : String) :
    Attempt.AsksOnly Request.IsReading (Namespaces.has e name) := by
  refine .handle (.bind (groupNames_asks e) fun groups => ?_) fun f => .bind (.say _ _ _) fun _ => .pure _
  split
  · exact .bind (.say _ _ _) fun _ => .pure _
  · exact .pure _

/-! ## On a server -/

namespace Server

/-- A reading request leaves the registry as it is, whatever it is answered. -/
theorem answer_reading {r : Request} (hr : r.IsReading) (s : Server) : (s.answer r).2.registry = s.registry := by
  have hany : s.FaultsAre fun _ _ => True := fun _ _ => trivial
  cases r with
  | opening e => exact (hany.answer_opening e).2.1
  | closing client => exact (hany.answer_closing client).2.1
  | call client c =>
    obtain ⟨-, hperform | ⟨-, hsame⟩⟩ := hany.answer_call client c
    · rw [← Registry.perform_reading hr s.registry, ← hperform]
    · exact hsame

end Server

/-- An operation that only reads leaves the registry as it is, whatever fails. -/
theorem Dialogue.AsksOnly.play_registry {d : Dialogue α} (hd : d.AsksOnly Request.IsReading) (s : Server) :
    (d.play Server.answer s).2.registry = s.registry :=
  hd.play (I := fun s' => s'.registry = s.registry)
    (fun _ s' hr hs => (Server.answer_reading hr s').trans hs) rfl

/-- What an operation asks for is on top of what was recorded before, and all of its sort. -/
theorem Dialogue.AsksOnly.play_requests {d : Dialogue α} (hd : d.AsksOnly P) (s : Server) :
    ∃ asked, (d.play Server.answer s).2.requests = asked ++ s.requests ∧ ∀ r ∈ asked, P r := by
  let I (s' : Server) : Prop := ∃ asked, s'.requests = asked ++ s.requests ∧ ∀ r ∈ asked, P r
  have hstep : ∀ r s', P r → I s' → I (s'.answer r).2 := by
    rintro r s' hr ⟨asked, hasked, hall⟩
    refine ⟨r :: asked, ?_, List.forall_mem_cons.mpr ⟨hr, hall⟩⟩
    rw [Server.answer_requests, hasked, List.cons_append]
  exact hd.play hstep ⟨[], rfl, fun _ hr => by cases hr⟩

end SchemaCatalog
