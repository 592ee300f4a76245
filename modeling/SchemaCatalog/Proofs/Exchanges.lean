/-
  What is said between an operation and whoever answers it.

  A run of a dialogue is a sequence of exchanges, each a request and its reply.  `Dialogue.Transcript` says of a
  dialogue by which exchanges it can come to which result, whoever answers: a transcript follows the dialogue from
  request to request and takes any reply.  What holds of all transcripts of an operation thus holds of all its
  runs, with any faults and with other clients at work between the requests (`transcript_exchanges`).

  The rules take a transcript apart the way the dialogue is put together.  Only that direction is of use, since
  dialogues are known and transcripts are not.
-/
import SchemaCatalog.Proofs.Requests

namespace SchemaCatalog

variable {α β κ σ : Type}

/-- A request and its reply. -/
structure Exchange where
  request : Request
  reply : Except Failure request.Reply

/-- The request has been granted. -/
def Exchange.Succeeds (x : Exchange) : Prop := ∃ y, x.reply = .ok y

namespace Dialogue

/-- By some exchanges, a dialogue comes to a result. -/
inductive Transcript : Dialogue α → List Exchange → α → Prop
  | done (a : α) : Transcript (.done a) [] a
  | log (line : LogLine) {next : Dialogue α} {t : List Exchange} {a : α} (h : Transcript next t a) :
    Transcript (.log line next) t a
  | ask (r : Request) {next : Except Failure r.Reply → Dialogue α} (reply : Except Failure r.Reply)
    {t : List Exchange} {a : α} (h : Transcript (next reply) t a) : Transcript (.ask r next) (⟨r, reply⟩ :: t) a

/-- What is exchanged in a run. -/
def exchanges (answer : (r : Request) → σ → Except Failure r.Reply × σ) : Dialogue α → σ → List Exchange
  | .done _, _ => []
  | .log _ next, s => next.exchanges answer s
  | .ask r next, s => ⟨r, (answer r s).1⟩ :: (next (answer r s).1).exchanges answer (answer r s).2

/-- A run follows the dialogue. -/
theorem transcript_exchanges (answer : (r : Request) → σ → Except Failure r.Reply × σ) (d : Dialogue α) (s : σ) :
    d.Transcript (d.exchanges answer s) (d.run answer s).result := by
  induction d generalizing s with
  | done a => exact .done a
  | log line next ih => exact .log line (ih s)
  | ask r next ih => exact .ask r _ (ih _ _)

namespace Transcript

variable {t : List Exchange}

/-- One dialogue after another: the exchanges of the first come before those of the second. -/
theorem bind {d : Dialogue α} {f : α → Dialogue β} {b : β} (h : (d >>= f).Transcript t b) :
    ∃ t₁ a t₂, d.Transcript t₁ a ∧ (f a).Transcript t₂ b ∧ t = t₁ ++ t₂ := by
  change (d.bind f).Transcript t b at h
  induction d generalizing t with
  | done a => exact ⟨[], a, t, .done a, h, rfl⟩
  | log line next ih =>
    cases h with
    | log _ h =>
      obtain ⟨t₁, a, t₂, h₁, h₂, rfl⟩ := ih h
      exact ⟨t₁, a, t₂, .log line h₁, h₂, rfl⟩
  | ask r next ih =>
    cases h with
    | ask _ reply h =>
      obtain ⟨t₁, a, t₂, h₁, h₂, rfl⟩ := ih reply h
      exact ⟨⟨r, reply⟩ :: t₁, a, t₂, .ask r reply h₁, h₂, rfl⟩

theorem pure {a b : α} (h : (Pure.pure a : Dialogue α).Transcript t b) : t = [] ∧ b = a := by
  cases h
  exact ⟨rfl, rfl⟩

/-- A line logged is nothing exchanged. -/
theorem say_bind {level : Level} {source : Source} {text : String} {f : Unit → Dialogue β} {b : β}
    (h : (Dialogue.say level source text >>= f).Transcript t b) : (f ()).Transcript t b := by
  cases h with
  | log _ h => exact h

theorem say_pure {level : Level} {source : Source} {text : String} {a b : α}
    (h : (do Dialogue.say level source text; Pure.pure a : Dialogue α).Transcript t b) : t = [] ∧ b = a :=
  h.say_bind.pure

/-- A request is one exchange. -/
theorem request {r : Request} {x : Except Failure r.Reply} (h : (Dialogue.request r).Transcript t x) :
    t = [⟨r, x⟩] := by
  cases h with
  | ask _ _ h =>
    cases h
    rfl

/-- What is exchanged is only what can be asked. -/
theorem asks {P : Request → Prop} {d : Dialogue α} {a : α} (h : d.Transcript t a) (hd : d.AsksOnly P) :
    ∀ x ∈ t, P x.request := by
  induction h with
  | done => exact fun x hx => by cases hx
  | log _ _ ih =>
    cases hd with
    | log _ hnext => exact ih hnext
  | ask r reply _ ih =>
    cases hd with
    | ask _ hr hnext => exact List.forall_mem_cons.mpr ⟨hr, ih (hnext reply)⟩

/-- A call in a session is one exchange; its failure is told. -/
theorem call {session : Session} {c : Call} {x : Except Failure c.Reply}
    (h : Dialogue.Transcript (session.call c).run t x) :
    ∃ reply, t = [⟨.call session.client c, reply⟩] ∧ x = reply.mapError session.endpoint.told := by
  obtain ⟨t₁, reply, t₂, hrequest, hreply, rfl⟩ := bind h
  obtain rfl := hrequest.request
  cases reply with
  | error f =>
    obtain ⟨rfl, rfl⟩ := hreply.pure
    exact ⟨.error f, rfl, rfl⟩
  | ok r =>
    obtain ⟨rfl, rfl⟩ := hreply.pure
    exact ⟨.ok r, rfl, rfl⟩

end Transcript

end Dialogue

/-! ## Sessions -/

/-- A client is closed: by one request, or by none if it cannot be. -/
inductive Closes (client : Client) : List Exchange → Except Failure Unit → Prop
  | without (h : client.closable = false) : Closes client [] (.ok ())
  | once (h : client.closable = true) (reply : Except Failure Unit) :
    Closes client [⟨.closing client, reply⟩] reply

/-- What is exchanged in a session: a client is asked for; if there is one, the body follows and then the closing,
whose failure takes the place of what the body came to. -/
inductive SessionTranscript (e : Endpoint) (start : κ) (body : Session → Dialogue (κ × Except Failure α)) :
    List Exchange → κ × Except Failure α → Prop
  | refused (f : Failure) : SessionTranscript e start body [⟨.opening e, .error f⟩] (start, .error (e.told f))
  | opened (client : Client) {t closing : List Exchange} {out : κ × Except Failure α}
      {closed : Except Failure Unit}
    (hbody : (body ⟨e, client⟩).Transcript t out) (hclosing : Closes client closing closed) :
    SessionTranscript e start body (⟨.opening e, .ok client⟩ :: (t ++ closing)) (out.1, closed >>= fun _ => out.2)

namespace Dialogue.Transcript

variable {t : List Exchange}

theorem close {session : Session} {x : Except Failure Unit} (h : session.close.Transcript t x) :
    Closes session.client t x := by
  rcases session with ⟨e, number, closable⟩
  cases closable with
  | true =>
    obtain rfl := Transcript.request h
    exact .once rfl x
  | false =>
    obtain ⟨rfl, rfl⟩ := Transcript.pure h
    exact .without rfl

/-- A session has the exchanges of its body between those of its start and its end. -/
theorem inSession {e : Endpoint} {start : κ} {body : Session → Dialogue (κ × Except Failure α)}
    {out : κ × Except Failure α} (h : (inSession e start body).Transcript t out) :
    SessionTranscript e start body t out := by
  obtain ⟨_, _, _, hstart, hsession, rfl⟩ := h.bind
  obtain ⟨_, reply, _, hopening, hreply, rfl⟩ := hstart.say_bind.bind
  obtain rfl := hopening.request
  cases reply with
  | error f =>
    obtain ⟨rfl, rfl⟩ := hreply.pure
    obtain ⟨rfl, rfl⟩ := hsession.pure
    exact .refused f
  | ok client =>
    obtain ⟨rfl, rfl⟩ := hreply.pure
    obtain ⟨_, ⟨kept, outcome⟩, _, hbody, hend, rfl⟩ := hsession.bind
    obtain ⟨_, closed, _, hclose, hout, rfl⟩ := hend.bind
    -- the body's outcome stands unless the closing fails
    have hclosing := hclose.close
    cases closed with
    | error f | ok u =>
      obtain ⟨rfl, rfl⟩ := hout.pure
      simp only [List.append_nil]
      exact .opened client hbody hclosing

end Dialogue.Transcript

end SchemaCatalog
