/-
  Operations while anything may fail.

  `Ends` is a triple about a dialogue: started on the registry `r`, with any faults of the sort `P`, it ends
  with a result and a registry as `Post` says.  Its rules follow the ways of building dialogues and attempts.
  The rule for a call has two cases, since a call is performed by the registry or is struck on its way and
  then changes nothing; the rules for sessions have one for a client that cannot be opened and one for a client
  that cannot be closed, whose failure takes the place of the outcome.
-/
import SchemaCatalog.Proofs.Requests

namespace SchemaCatalog

variable {α β κ : Type} {P : Point → Failure → Prop} {r : Registry}

/-- Whatever strikes, the dialogue ends from the registry `r` as `Post` says. -/
def Dialogue.Ends (P : Point → Failure → Prop) (d : Dialogue α) (r : Registry) (Post : α → Registry → Prop) :
    Prop :=
  ∀ s : Server, s.FaultsAre P → s.registry = r →
    ∃ x s', d.play Server.answer s = (x, s') ∧ s'.FaultsAre P ∧ Post x s'.registry

/-- Whatever strikes, the attempt ends from the registry `r` as `Post` says. -/
def Attempt.Ends (P : Point → Failure → Prop) (a : Attempt α) (r : Registry)
    (Post : Except Failure α → Registry → Prop) : Prop := Dialogue.Ends P a.run r Post

namespace Dialogue.Ends

/-- A dialogue that is over has not touched the registry. -/
theorem done {a : α} {Post : α → Registry → Prop} (h : Post a r) : Ends P (.done a) r Post :=
  fun s hs hr => ⟨a, s, rfl, hs, hr ▸ h⟩

/-- What follows from how a dialogue ends is so when it has ended. -/
theorem mono {d : Dialogue α} {Post Post' : α → Registry → Prop} (hd : Ends P d r Post)
    (h : ∀ x r', Post x r' → Post' x r') : Ends P d r Post' := by
  intro s hs hr
  obtain ⟨x, s', hplay, hs', hpost⟩ := hd s hs hr
  exact ⟨x, s', hplay, hs', h x _ hpost⟩

/-- One dialogue after another: the second starts on the registry that the first has left. -/
theorem bind {d : Dialogue α} {f : α → Dialogue β} {Mid : α → Registry → Prop} {Post : β → Registry → Prop}
    (hd : Ends P d r Mid) (hf : ∀ x r', Mid x r' → Ends P (f x) r' Post) : Ends P (d >>= f) r Post := by
  intro s hs hr
  obtain ⟨x, s₁, hplay, hs₁, hmid⟩ := hd s hs hr
  obtain ⟨y, s', hplay', hs', hpost⟩ := hf x s₁.registry hmid s₁ hs₁ rfl
  refine ⟨y, s', ?_, hs', hpost⟩
  rw [Dialogue.play_bind, hplay]
  exact hplay'

/-- A dialogue has one outcome, so what is said of it twice holds together. -/
theorem and {d : Dialogue α} {Post Post' : α → Registry → Prop} (h : Ends P d r Post) (h' : Ends P d r Post') :
    Ends P d r fun x r' => Post x r' ∧ Post' x r' := by
  intro s hs hr
  obtain ⟨x, s', hplay, hs', hpost⟩ := h s hs hr
  obtain ⟨y, t, hplay', -, hpost'⟩ := h' s hs hr
  cases hplay.symm.trans hplay'
  exact ⟨x, s', hplay, hs', hpost, hpost'⟩

/-- A line logged changes nothing. -/
theorem say_bind {level : Level} {source : Source} {text : String} {f : Unit → Dialogue β}
    {Post : β → Registry → Prop} (hf : Ends P (f ()) r Post) :
    Ends P (Dialogue.say level source text >>= f) r Post := hf

/-- What only reads leaves the registry as it is. -/
theorem of_reading {d : Dialogue α} (hd : d.AsksOnly Request.IsReading) : Ends P d r fun _ r' => r' = r := by
  have hfaults : ∀ q (s : Server), q.IsReading → s.FaultsAre P → (s.answer q).2.FaultsAre P := by
    intro q s _ hs
    cases q with
    | opening e => exact (hs.answer_opening e).1
    | closing client => exact (hs.answer_closing client).1
    | call client c => exact (hs.answer_call client c).1
  exact fun s hs hr => ⟨_, _, rfl, hd.play hfaults hs, (hd.play_registry s).trans hr⟩

end Dialogue.Ends

namespace Attempt.Ends

/-- What a run leaves on a server with such faults. -/
theorem run {a : Attempt α} {Post : Except Failure α → Registry → Prop} {s : Server}
    (h : Ends P a s.registry Post) (hs : s.FaultsAre P) :
    Post (a.run.run Server.answer s).result (a.run.run Server.answer s).state.registry := by
  obtain ⟨x, s', hplay, -, hpost⟩ := h s hs rfl
  have hresult : (a.run.run Server.answer s).result = x := congrArg Prod.fst hplay
  have hstate : (a.run.run Server.answer s).state = s' := congrArg Prod.snd hplay
  rw [hresult, hstate]
  exact hpost

/-- One attempt after another; a failure of the first is the failure of both. -/
theorem bind {a : Attempt α} {f : α → Attempt β} {Mid : Except Failure α → Registry → Prop}
    {Post : Except Failure β → Registry → Prop} (ha : Ends P a r Mid)
    (hok : ∀ x r', Mid (.ok x) r' → Ends P (f x) r' Post)
    (herror : ∀ e r', Mid (.error e) r' → Post (.error e) r') : Ends P (a >>= f) r Post := by
  intro s hs hr
  obtain ⟨x, s₁, hplay, hs₁, hmid⟩ := ha s hs hr
  rw [Attempt.play_run] at hplay ⊢
  rw [Attempt.play_bind, hplay]
  cases x with
  | error e => exact ⟨.error e, s₁, rfl, hs₁, herror e _ hmid⟩
  | ok x => exact hok x s₁.registry hmid s₁ hs₁ rfl

theorem say_bind {level : Level} {source : Source} {text : String} {f : Unit → Attempt β}
    {Post : Except Failure β → Registry → Prop} (hf : Ends P (f ()) r Post) :
    Ends P (Attempt.say level source text >>= f) r Post := hf

/-- What is known without asking is known at once. -/
theorem lift_bind {x : Except Failure α} {f : α → Attempt β} {Post : Except Failure β → Registry → Prop}
    (hok : ∀ a, x = .ok a → Ends P (f a) r Post) (herror : ∀ e, x = .error e → Post (.error e) r) :
    Ends P ((liftM x : Attempt α) >>= f) r Post := by
  cases x with
  | error e => exact fun s hs hr => ⟨.error e, s, rfl, hs, hr ▸ herror e rfl⟩
  | ok a => exact hok a rfl

/-- A handler takes over from the failures of its kind. -/
theorem handle {kind : Kind} {handler : Failure → Attempt α} {a : Attempt α}
    {Mid Post : Except Failure α → Registry → Prop} (ha : Ends P a r Mid)
    (hok : ∀ x r', Mid (.ok x) r' → Post (.ok x) r')
    (hhandler : ∀ e r', Mid (.error e) r' → e.kind.isA kind = true → Ends P (handler e) r' Post)
    (hother : ∀ e r', Mid (.error e) r' → ¬e.kind.isA kind = true → Post (.error e) r') :
    Ends P (a.handle kind handler) r Post := by
  intro s hs hr
  obtain ⟨x, s₁, hplay, hs₁, hmid⟩ := ha s hs hr
  rw [Attempt.play_run] at hplay ⊢
  rw [Attempt.play_handle, hplay]
  cases x with
  | ok x => exact ⟨.ok x, s₁, rfl, hs₁, hok x _ hmid⟩
  | error e =>
    by_cases hkind : e.kind.isA kind = true
    · simp only [if_pos hkind]
      exact hhandler e s₁.registry hmid hkind s₁ hs₁ rfl
    · simp only [if_neg hkind]
      exact ⟨.error e, s₁, rfl, hs₁, hother e _ hmid hkind⟩

/-- A call is performed by the registry, or it is struck and changes nothing. -/
theorem call (session : Session) (c : Call) :
    Ends P (session.call c) r fun x r' =>
      (∃ y, r.perform c = (y, r') ∧ x = y.mapError session.endpoint.told) ∨
        (∃ f, Server.Raises P c f ∧ x = .error (session.endpoint.told f)) ∧ r' = r := by
  rintro s hs rfl
  have hperforms := hs.answer_call session.client c
  generalize hanswer : s.answer (.call session.client c) = p at hperforms
  obtain ⟨x, s'⟩ := p
  obtain ⟨hs', hperform | ⟨⟨f, hf, hx⟩, hr'⟩⟩ := hperforms
  · refine ⟨x.mapError session.endpoint.told, s', ?_, hs', .inl ⟨x, hperform.symm, rfl⟩⟩
    rw [Attempt.play_run, Session.play_call, hanswer]
    cases x <;> rfl
  · refine ⟨.error (session.endpoint.told f), s', ?_, hs', .inr ⟨⟨f, hf, rfl⟩, hr'⟩⟩
    obtain rfl : x = .error f := hx
    rw [Attempt.play_run, Session.play_call, hanswer]

end Attempt.Ends

/-! ## Sessions -/

section Sessions

variable {e : Endpoint}

/-- A session ends as its body does, or it could not be opened, or the failure of its closing is the outcome. -/
theorem inSession_ends {start : κ} {body : Session → Dialogue (κ × Except Failure α)}
    {Post : κ × Except Failure α → Registry → Prop}
    (hopening : ∀ f, P .opening f → Post (start, .error (e.told f)) r)
    (hclosing : ∀ f, P .closing f → ∀ out r', Post out r' → Post (out.1, .error f) r')
    (hbody : ∀ client, (body ⟨e, client⟩).Ends P r Post) : (inSession e start body).Ends P r Post := by
  intro s hs hr
  obtain ⟨hs₁, hr₁, hraised⟩ := hs.answer_opening e
  generalize hanswer : s.answer (.opening e) = p at hs₁ hr₁ hraised
  obtain ⟨f | client, s₁⟩ := p
  · refine ⟨(start, .error (e.told f)), s₁, ?_, hs₁, ?_⟩
    · rw [play_inSession, Session.play_start, hanswer]
    · rw [hr₁.trans hr]
      exact hopening f (hraised f rfl)
  · obtain ⟨out, s₂, hplay, hs₂, hpost⟩ := hbody client s₁ hs₁ (hr₁.trans hr)
    obtain ⟨hs₃, hr₃, hfailed⟩ := hs₂.answer_closing client
    generalize hclose : s₂.answer (.closing client) = p at hs₃ hr₃ hfailed
    obtain ⟨x, s₃⟩ := p
    -- a client that cannot be closed is left as it is
    by_cases hclosable : client.closable = true
    · cases x with
      | ok u =>
        refine ⟨out, s₃, ?_, hs₃, hr₃ ▸ hpost⟩
        rw [play_inSession, Session.play_start, hanswer]
        simp only [hplay, Session.play_close, if_pos hclosable, hclose]
        rfl
      | error f =>
        refine ⟨(out.1, .error f), s₃, ?_, hs₃, hr₃ ▸ hclosing f (hfailed f rfl) out _ hpost⟩
        rw [play_inSession, Session.play_start, hanswer]
        simp only [hplay, Session.play_close, if_pos hclosable, hclose]
    · refine ⟨out, s₂, ?_, hs₂, hpost⟩
      rw [play_inSession, Session.play_start, hanswer]
      simp only [hplay, Session.play_close, if_neg hclosable]

/-- So it is with a session whose body keeps nothing. -/
theorem attemptInSession_ends {body : Session → Attempt α} {Post : Except Failure α → Registry → Prop}
    (hopening : ∀ f, P .opening f → Post (.error (e.told f)) r)
    (hclosing : ∀ f, P .closing f → ∀ x r', Post x r' → Post (.error f) r')
    (hbody : ∀ client, (body ⟨e, client⟩).Ends P r Post) : (attemptInSession e body).Ends P r Post := by
  have hsession : (inSession e () fun session => (fun y => ((), y)) <$> (body session).run).Ends P r
      fun out r' => Post out.2 r' := by
    refine inSession_ends hopening (fun f hf out r' => hclosing f hf out.2 r') fun client => ?_
    exact Dialogue.Ends.bind (hbody client) fun x r' hx => .done hx
  intro s hs hr
  obtain ⟨out, s', hplay, hs', hpost⟩ := hsession s hs hr
  refine ⟨out.2, s', ?_, hs', hpost⟩
  rw [Attempt.play_run, play_attemptInSession]
  simp only [hplay]

end Sessions

/-! ## Failures alone -/

/-- Whatever strikes, and whatever the registry holds, the attempt fails only as `Q` says. -/
def Attempt.FailsOnly (P : Point → Failure → Prop) (Q : Failure → Prop) (a : Attempt α) : Prop :=
  ∀ r, a.Ends P r fun x _ => ∀ f, x = .error f → Q f

namespace Attempt.FailsOnly

variable {Q : Failure → Prop}

/-- What a run on a server with such faults can fail by. -/
theorem run {a : Attempt α} (h : FailsOnly P Q a) {s : Server} (hs : s.FaultsAre P) {f : Failure}
    (hf : (a.run.run Server.answer s).result = .error f) : Q f := (h s.registry).run hs f hf

theorem mono {Q' : Failure → Prop} {a : Attempt α} (h : FailsOnly P Q a) (hQ : ∀ f, Q f → Q' f) :
    FailsOnly P Q' a :=
  fun r => (h r).mono fun _ _ hx f hf => hQ f (hx f hf)

theorem pure (a : α) : FailsOnly P Q (Pure.pure a : Attempt α) :=
  fun _ => Dialogue.Ends.done fun _ hf => (by cases hf)

theorem throw {f : Failure} (h : Q f) : FailsOnly P Q (throw f : Attempt α) := by
  refine fun _ => Dialogue.Ends.done fun f' hf' => ?_
  cases hf'
  exact h

theorem say_bind {level : Level} {source : Source} {text : String} {f : Unit → Attempt β}
    (hf : FailsOnly P Q (f ())) : FailsOnly P Q (Attempt.say level source text >>= f) := hf

theorem say (level : Level) (source : Source) (text : String) :
    FailsOnly P Q (Attempt.say level source text) :=
      fun _ s hs _ => ⟨.ok (), s, rfl, hs, fun _ hf => (by cases hf)⟩

/-- Two attempts fail as one of them does. -/
theorem bind {a : Attempt α} {f : α → Attempt β} (ha : FailsOnly P Q a) (hf : ∀ x, FailsOnly P Q (f x)) :
    FailsOnly P Q (a >>= f) := by
  refine fun r => (ha r).bind (fun x r' _ => hf x r') fun e r' he f' hf' => ?_
  cases hf'
  exact he e rfl

/-- What is known at once fails in the way that is known. -/
theorem lift_bind {x : Except Failure α} {f : α → Attempt β} (hx : ∀ e, x = .error e → Q e)
    (hf : ∀ a, x = .ok a → FailsOnly P Q (f a)) : FailsOnly P Q ((liftM x : Attempt α) >>= f) := by
  refine fun r => Attempt.Ends.lift_bind (fun a ha => hf a ha r) fun e he f' hf' => ?_
  cases hf'
  exact hx e he

theorem lift {x : Except Failure α} (hx : ∀ e, x = .error e → Q e) : FailsOnly P Q (liftM x : Attempt α) := by
  cases x with
  | ok a => exact pure a
  | error e => exact throw (hx e rfl)

/-- A handled attempt fails as its handler does, or by a failure of another kind. -/
theorem handle {R : Failure → Prop} {kind : Kind} {handler : Failure → Attempt α} {a : Attempt α}
    (ha : FailsOnly P R a) (hhandler : ∀ f, FailsOnly P Q (handler f))
    (hother : ∀ f, R f → ¬f.kind.isA kind = true → Q f) : FailsOnly P Q (a.handle kind handler) := by
  refine fun r => (ha r).handle (fun x r' _ f hf => (by cases hf)) (fun f r' _ _ => hhandler f r') ?_
  intro e r' he hkind f hf
  cases hf
  exact hother e (he e rfl) hkind

end Attempt.FailsOnly

end SchemaCatalog
