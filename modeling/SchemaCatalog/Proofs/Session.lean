/-
  Operations run one step after the other.

  A run of a dialogue leaves a result, a state and log lines; what is proved about operations concerns the
  first two.  `Dialogue.play` keeps these, and each way of building a dialogue has its rule: what is done
  gives its value, a line logged changes nothing, a request is answered, and one dialogue after another
  plays from where the first ends.  The rules for attempts and for sessions follow from them.

  Nothing is assumed here about who answers.  `Meets` is the shape of what is proved about single steps
  with someone who may fail: the state stays good, and the outcome is the true one or a loss.
-/
import SchemaCatalog.Session

namespace SchemaCatalog

/-! ## Outcomes -/

/-- A step ends in a state that is good, with the true outcome or with a loss. -/
def Meets {σ α : Type} (Good : σ → Prop) (Lost : Failure → Prop) (truth : Except Failure α)
    (p : Except Failure α × σ) : Prop :=
  Good p.2 ∧ (p.1 = truth ∨ ∃ f, p.1 = .error f ∧ Lost f)

/-- The two ways to meet what is true, with the state that is left. -/
theorem Meets.cases {σ α : Type} {Good : σ → Prop} {Lost : Failure → Prop} {truth : Except Failure α}
    {p : Except Failure α × σ} (h : Meets Good Lost truth p) :
    ∃ s, Good s ∧ (p = (truth, s) ∨ ∃ f, p = (.error f, s) ∧ Lost f) := by
  obtain ⟨x, s⟩ := p
  obtain ⟨hgood, rfl | ⟨f, rfl, hf⟩⟩ := h
  · exact ⟨s, hgood, .inl rfl⟩
  · exact ⟨s, hgood, .inr ⟨f, rfl, hf⟩⟩

/-- An outcome with a value has no failure. -/
theorem eq_ok_of_toOption {ε α : Type} {x : Except ε α} {a : α} (h : x.toOption = some a) : x = .ok a := by
  cases x with
  | error f => cases h
  | ok b => exact congrArg Except.ok (Option.some.inj h)

variable {σ α β κ : Type} (answer : (r : Request) → σ → Except Failure r.Reply × σ)

/-! ## Dialogues -/

namespace Dialogue

/-- What a run of a dialogue gives, and where it leaves the state. -/
def play (d : Dialogue α) (s : σ) : α × σ := ((d.run answer s).result, (d.run answer s).state)

@[simp] theorem play_pure (a : α) (s : σ) : (pure a : Dialogue α).play answer s = (a, s) := rfl

@[simp] theorem play_bind (d : Dialogue α) (f : α → Dialogue β) (s : σ) :
    (d >>= f).play answer s = (f (d.play answer s).1).play answer (d.play answer s).2 := by
  show (d.bind f).play answer s = _
  rw [play, run_bind]
  rfl

/-- A line of the log gives nothing and leaves the state alone. -/
@[simp] theorem play_say (level : Level) (source : Source) (text : String) (s : σ) :
    (say level source text).play answer s = ((), s) := rfl

/-- A request is answered by whoever is asked. -/
@[simp] theorem play_request (r : Request) (s : σ) : (request r).play answer s = answer r s := rfl

end Dialogue

/-! ## Attempts -/

namespace Attempt

/-- What a run of an attempt gives, a value or a failure, and where it leaves the state. -/
def play (a : Attempt α) (s : σ) : Except Failure α × σ := a.run.play answer s

@[simp] theorem play_mk (d : Dialogue (Except Failure α)) (s : σ) :
    Attempt.play answer (ExceptT.mk d) s = d.play answer s := rfl

@[simp] theorem play_run (a : Attempt α) (s : σ) : a.run.play answer s = Attempt.play answer a s := rfl

/-- What is known without asking is lifted as it is. -/
@[simp] theorem play_lift (x : Except Failure α) (s : σ) :
    Attempt.play answer (liftM x) s = (x, s) := by
  cases x <;> rfl

/-- One attempt after another: a failure of the first ends both. -/
theorem play_bind (a : Attempt α) (f : α → Attempt β) (s : σ) :
    Attempt.play answer (a >>= f) s =
      match Attempt.play answer a s with
      | (.ok x, s) => Attempt.play answer (f x) s
      | (.error e, s) => (.error e, s) := by
  show ((a >>= f).run).play answer s = _
  rw [ExceptT.run_bind, Dialogue.play_bind, Attempt.play]
  rcases a.run.play answer s with ⟨x | x, s'⟩ <;> rfl

/-- A handler takes over from the failures of its kind. -/
theorem play_handle (kind : Kind) (handler : Failure → Attempt α) (a : Attempt α) (s : σ) :
    Attempt.play answer (a.handle kind handler) s =
      match Attempt.play answer a s with
      | (.ok x, s) => (.ok x, s)
      | (.error e, s) => if e.kind.isA kind then Attempt.play answer (handler e) s else (.error e, s) := by
  show (ExceptT.run (tryCatch a _)).play answer s = _
  rw [ExceptT.run_tryCatch, Dialogue.play_bind, Attempt.play]
  rcases a.run.play answer s with ⟨e | x, s'⟩
  · show (ExceptT.run (if e.kind.isA kind then handler e else throw e)).play answer s' =
      if e.kind.isA kind then Attempt.play answer (handler e) s' else (.error e, s')
    by_cases h : e.kind.isA kind
    · rw [if_pos h, if_pos h, Attempt.play]
    · rw [if_neg h, if_neg h]
      rfl
  · rfl

end Attempt

/-! ## Sessions -/

namespace Session

/-- A session holds the client that was opened; the failure to open one is told by its address. -/
theorem play_start (e : Endpoint) (s : σ) :
    (Session.start e).play answer s =
      match answer (.opening e) s with
      | (.ok client, s) => (.ok ⟨e, client⟩, s)
      | (.error f, s) => (.error (e.told f), s) := by
  simp only [Session.start, Dialogue.play_bind, Dialogue.play_say, Dialogue.play_request]
  rcases answer (.opening e) s with ⟨f | client, s'⟩ <;> rfl

/-- A call is one request, and its failure is told by the address of the session. -/
theorem play_call (session : Session) (c : Call) (s : σ) :
    Attempt.play answer (session.call c) s =
      match answer (.call session.client c) s with
      | (.ok r, s) => (.ok r, s)
      | (.error f, s) => (.error (session.endpoint.told f), s) := by
  show Dialogue.play answer (Dialogue.request _ >>= _) s = _
  rw [Dialogue.play_bind, Dialogue.play_request]
  rcases answer (.call session.client c) s with ⟨f | r, s'⟩ <;> rfl

/-- A client is closed if it can be; its failure is not told in any other way. -/
theorem play_close (session : Session) (s : σ) :
    session.close.play answer s =
      if session.client.closable then answer (.closing session.client) s else (.ok (), s) := by
  rcases session with ⟨e, number, closable⟩
  cases closable <;> rfl

end Session

/-- A session is started, its body played, and the session closed. -/
theorem play_inSession (e : Endpoint) (start : κ)
    (body : Session → Dialogue (κ × Except Failure α)) (s : σ) :
    (inSession e start body).play answer s =
      match (Session.start e).play answer s with
      | (.error f, s) => ((start, .error f), s)
      | (.ok session, s) =>
        let out := (body session).play answer s
        match session.close.play answer out.2 with
        | (.error f, s) => ((out.1.1, .error f), s)
        | (.ok (), s) => (out.1, s) := by
  rw [inSession, Dialogue.play_bind]
  rcases (Session.start e).play answer s with ⟨f | session, s⟩
  · rfl
  · simp only [Dialogue.play_bind]
    rcases session.close.play answer ((body session).play answer s).2 with ⟨f | u, s⟩ <;> rfl

/-- A session whose body keeps nothing is one that keeps the same all along. -/
theorem play_attemptInSession (e : Endpoint) (body : Session → Attempt α) (s : σ) :
    Attempt.play answer (attemptInSession e body) s =
      let out := (inSession e () fun session => (fun x => ((), x)) <$> (body session).run).play answer s
      (out.1.2, out.2) := by
  simp only [attemptInSession, Attempt.play_mk, Dialogue.play_bind]
  rfl

end SchemaCatalog
