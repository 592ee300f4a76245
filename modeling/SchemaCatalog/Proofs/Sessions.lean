/-
  Sessions, one after the other.

  An operation opens as many sessions as it needs and leaves each in many ways: at its end, out of a loop, or by
  a failure that is passed on or handled, after which the next session may follow.  `Sessions` is the shape that
  all of this keeps: a client is opened, called and closed, and only then comes the next.  It is kept by
  everything that operations are built from (`KeepsSessions`), whatever is answered.

  What is wanted of sessions follows from the shape: the clients closed are those opened that can be closed
  (`Sessions.closed_eq`), and no client is used before it is opened or once it is closed (`Sessions.usedIn`).  The
  latter needs that clients are told apart.
-/
import SchemaCatalog.Proofs.Exchanges

namespace SchemaCatalog

variable {α β κ : Type} {t t₁ t₂ before : List Exchange}

/-! ## Clients in exchanges -/

/-- The client that a request is made of. -/
def Request.client? : Request → Option Client
  | .opening _ => none
  | .closing client | .call client _ => some client

/-- Whether a request is a call of a client. -/
def Request.IsCallOf (client : Client) : Request → Prop
  | .call own _ => own = client
  | _ => False

namespace Exchange

/-- The client that is opened. -/
def opened? : Exchange → Option Client
  | ⟨.opening _, .ok client⟩ => some client
  | _ => none

/-- The client that is closed, or tried to be. -/
def closed? : Exchange → Option Client
  | ⟨.closing client, _⟩ => some client
  | _ => none

def opened (t : List Exchange) : List Client := t.filterMap opened?

def closed (t : List Exchange) : List Client := t.filterMap closed?

@[simp] theorem opened_append (t₁ t₂ : List Exchange) : opened (t₁ ++ t₂) = opened t₁ ++ opened t₂ :=
  List.filterMap_append

@[simp] theorem closed_append (t₁ t₂ : List Exchange) : closed (t₁ ++ t₂) = closed t₁ ++ closed t₂ :=
  List.filterMap_append

/-- No client is opened by calling one. -/
theorem opened_calls {client : Client} (h : ∀ x ∈ t, x.request.IsCallOf client) : opened t = [] := by
  refine List.filterMap_eq_nil_iff.mpr fun x hx => ?_
  obtain ⟨request, reply⟩ := x
  cases request with
  | call own c => rfl
  | opening e => exact (h _ hx).elim
  | closing own => rfl

/-- No client is closed by calling one. -/
theorem closed_calls {client : Client} (h : ∀ x ∈ t, x.request.IsCallOf client) : closed t = [] := by
  refine List.filterMap_eq_nil_iff.mpr fun x hx => ?_
  obtain ⟨request, reply⟩ := x
  cases request with
  | call own c => rfl
  | opening e => rfl
  | closing own => exact (h _ hx).elim

end Exchange

open Exchange (opened closed)

/-- Closing a client opens none. -/
theorem Closes.opened_eq {client : Client} {x : Except Failure Unit} (h : Closes client t x) : opened t = [] := by
  cases h <;> rfl

/-- A client that can be closed is, and no other. -/
theorem Closes.closed_eq {client : Client} {x : Except Failure Unit} (h : Closes client t x) :
    closed t = [client].filter Client.closable := by
  cases h with
  | without h => rw [List.filter_cons_of_neg (ne_true_of_eq_false h)]; rfl
  | once h reply => rw [List.filter_cons_of_pos h]; rfl

/-- The calls of a client and its closing open none. -/
theorem Exchange.opened_calls_closing {client : Client} {calls closing : List Exchange} {x : Except Failure Unit}
    (hcalls : ∀ y ∈ calls, y.request.IsCallOf client) (hclosing : Closes client closing x) :
    opened (calls ++ closing) = [] := by
  rw [opened_append, opened_calls hcalls, hclosing.opened_eq, List.append_nil]

/-- They close the client, if it can be closed. -/
theorem Exchange.closed_calls_closing {client : Client} {calls closing : List Exchange} {x : Except Failure Unit}
    (hcalls : ∀ y ∈ calls, y.request.IsCallOf client) (hclosing : Closes client closing x) :
    closed (calls ++ closing) = [client].filter Client.closable := by
  rw [closed_append, closed_calls hcalls, hclosing.closed_eq, List.nil_append]

/-! ## Sessions one after the other -/

/-- Sessions, one after the other: a client that could not be opened, or one that is opened, called and closed. -/
inductive Sessions : List Exchange → Prop
  | none : Sessions []
  | refused (e : Endpoint) (f : Failure) {t : List Exchange} (h : Sessions t) :
    Sessions (⟨.opening e, .error f⟩ :: t)
  | session (e : Endpoint) (client : Client) {calls closing t : List Exchange} {x : Except Failure Unit}
    (hcalls : ∀ y ∈ calls, y.request.IsCallOf client) (hclosing : Closes client closing x) (h : Sessions t) :
    Sessions (⟨.opening e, .ok client⟩ :: (calls ++ closing ++ t))

namespace Sessions

/-- Sessions after sessions are sessions. -/
theorem append (h₁ : Sessions t₁) (h₂ : Sessions t₂) : Sessions (t₁ ++ t₂) := by
  induction h₁ with
  | none => exact h₂
  | refused e f _ ih => exact .refused e f ih
  | session e client hcalls hclosing _ ih =>
    rw [List.cons_append, List.append_assoc]
    exact .session e client hcalls hclosing ih

theorem flatten {ts : List (List Exchange)} (h : ∀ t ∈ ts, Sessions t) : Sessions ts.flatten := by
  induction ts with
  | nil => exact .none
  | cons t ts ih =>
    obtain ⟨ht, hts⟩ := List.forall_mem_cons.mp h
    exact ht.append (ih hts)

/-- The clients closed are those opened that can be closed, in the same order. -/
theorem closed_eq (h : Sessions t) : closed t = (opened t).filter Client.closable := by
  induction h with
  | none => rfl
  | refused e f _ ih => exact ih
  | @session e client calls closing t x hcalls hclosing _ ih =>
    calc closed (calls ++ closing ++ t)
        = [client].filter Client.closable ++ (opened t).filter Client.closable := by
          rw [Exchange.closed_append, Exchange.closed_calls_closing hcalls hclosing, ih]
      _ = (client :: opened t).filter Client.closable := (List.filter_append [client] _).symm
      _ = (client :: opened (calls ++ closing ++ t)).filter Client.closable := by
          rw [Exchange.opened_append, Exchange.opened_calls_closing hcalls hclosing, List.nil_append]

end Sessions

/-! ## Clients are used while they are open -/

/-- Every client that is used in these exchanges was opened before and has not been closed, given the exchanges
before them. -/
def UsedIn (before t : List Exchange) : Prop :=
  ∀ t₁ x t₂, t = t₁ ++ x :: t₂ → ∀ client, x.request.client? = some client →
    client ∈ opened (before ++ t₁) ∧ client ∉ closed (before ++ t₁)

theorem usedIn_nil (before : List Exchange) : UsedIn before [] := fun _ _ _ h => by simp at h

/-- Exchange by exchange: each uses a client that is open when it is its turn. -/
theorem usedIn_cons {x : Exchange}
    (hx : ∀ client, x.request.client? = some client → client ∈ opened before ∧ client ∉ closed before)
    (ht : UsedIn (before ++ [x]) t) : UsedIn before (x :: t) := by
  intro t₁ y t₂ hsplit
  rcases List.cons_eq_append_iff.mp hsplit with ⟨rfl, hcons⟩ | ⟨t₁, rfl, rfl⟩
  · cases hcons
    rwa [List.append_nil]
  · have hlater := ht t₁ y t₂ rfl
    rwa [List.append_assoc] at hlater

/-- A client that is open is called and closed while it is open. -/
theorem usedIn_calls_closing {client : Client} {calls closing : List Exchange} {x : Except Failure Unit}
    (hopened : client ∈ opened before) (hclosed : client ∉ closed before)
    (hcalls : ∀ y ∈ calls, y.request.IsCallOf client) (hclosing : Closes client closing x)
    (ht : UsedIn (before ++ (calls ++ closing)) t) : UsedIn before (calls ++ closing ++ t) := by
  have huse : ∀ own, some client = some own → own ∈ opened before ∧ own ∉ closed before := by
    rintro _ ⟨⟩
    exact ⟨hopened, hclosed⟩
  induction calls generalizing before with
  | nil =>
    cases hclosing with
    | without _ => rwa [List.append_nil, List.append_nil] at ht
    | once _ x => exact usedIn_cons huse ht
  | cons y calls ih =>
    obtain ⟨hy, hothers⟩ := List.forall_mem_cons.mp hcalls
    obtain ⟨request, reply⟩ := y
    cases request with
    | opening _ | closing _ => exact hy.elim
    | call own c =>
      obtain rfl : own = client := hy
      -- a call leaves the client as open as it was
      have hopened' : own ∈ opened (before ++ [⟨.call own c, reply⟩]) := by
        rw [Exchange.opened_append]
        exact List.mem_append_left _ hopened
      have hclosed' : own ∉ closed (before ++ [⟨.call own c, reply⟩]) := by
        rw [Exchange.closed_append]
        exact fun hmem => (List.mem_append.mp hmem).elim hclosed fun hmem => by cases hmem
      refine usedIn_cons huse (ih hopened' hclosed' hothers ?_ ?_)
      · rwa [List.append_assoc]
      · rintro _ ⟨⟩
        exact ⟨hopened', hclosed'⟩

/-- In sessions, every client is used while it is open, if no two of them are the same and only clients opened
before were closed before. -/
theorem Sessions.usedIn (h : Sessions t) (hbefore : closed before ⊆ opened before)
    (hnew : (opened before ++ opened t).Nodup) : UsedIn before t := by
  induction h generalizing before with
  | none => exact usedIn_nil before
  | @refused e f t _ ih =>
    have hopened : opened (before ++ [⟨.opening e, .error f⟩]) = opened before :=
      (Exchange.opened_append _ _).trans (List.append_nil _)
    have hclosed : closed (before ++ [⟨.opening e, .error f⟩]) = closed before :=
      (Exchange.closed_append _ _).trans (List.append_nil _)
    refine usedIn_cons (fun _ hclient => by cases hclient) (ih ?_ ?_)
    · rw [hopened, hclosed]
      exact hbefore
    · rw [hopened]
      exact hnew
  | @session e client calls closing t x hcalls hclosing _ ih =>
    -- the client is new, so it is none of those that were closed
    have hnew : (opened before ++ [client] ++ opened t).Nodup := by
      have hnone := Exchange.opened_calls_closing hcalls hclosing
      have hopened : opened (⟨.opening e, .ok client⟩ :: (calls ++ closing ++ t)) = client :: opened t := by
        show client :: opened (calls ++ closing ++ t) = client :: opened t
        rw [Exchange.opened_append, hnone, List.nil_append]
      rwa [hopened, List.append_cons] at hnew
    have hstart : opened (before ++ [⟨.opening e, .ok client⟩]) = opened before ++ [client] :=
      Exchange.opened_append _ _
    have hstart' : closed (before ++ [⟨.opening e, .ok client⟩]) = closed before :=
      (Exchange.closed_append _ _).trans (List.append_nil _)
    have hmem : client ∈ opened before ++ [client] := List.mem_append_right _ List.mem_cons_self
    have hnot : client ∉ closed before := fun hmem =>
      (List.nodup_append.mp (List.nodup_append.mp hnew).1).2.2 _ (hbefore hmem) _ List.mem_cons_self rfl
    refine usedIn_cons (fun _ hclient => by cases hclient)
      (usedIn_calls_closing (hstart ▸ hmem) (hstart' ▸ hnot) hcalls hclosing (ih ?_ ?_))
    · rw [Exchange.closed_append, Exchange.opened_append, hstart, hstart',
        Exchange.opened_calls_closing hcalls hclosing, Exchange.closed_calls_closing hcalls hclosing,
        List.append_nil]
      exact List.append_subset.mpr ⟨List.subset_append_of_subset_left _ hbefore,
        List.subset_append_of_subset_right _ (List.filter_subset_self _)⟩
    · rwa [Exchange.opened_append, hstart, Exchange.opened_calls_closing hcalls hclosing, List.append_nil]

/-! ## Attempts that keep sessions -/

/-- Whatever a dialogue is answered, it is carried on in sessions. -/
def Dialogue.KeepsSessions (d : Dialogue α) : Prop := ∀ t a, d.Transcript t a → Sessions t

/-- Whatever an attempt is answered, it is carried on in sessions. -/
def Attempt.KeepsSessions (a : Attempt α) : Prop := Dialogue.KeepsSessions a.run

namespace Dialogue.KeepsSessions

theorem done (a : α) : KeepsSessions (.done a) := by
  intro t b h
  cases h
  exact .none

theorem say (level : Level) (source : Source) (text : String) :
    KeepsSessions (Dialogue.say level source text) := by
  intro t b h
  cases h with
  | log _ h => exact done () t b h

/-- The sessions of one dialogue are over before those of the next. -/
theorem bind {d : Dialogue α} {f : α → Dialogue β} (hd : KeepsSessions d) (hf : ∀ a, KeepsSessions (f a)) :
    KeepsSessions (d >>= f) := by
  intro t b h
  obtain ⟨t₁, a, t₂, h₁, h₂, rfl⟩ := h.bind
  exact (hd t₁ a h₁).append (hf a t₂ b h₂)

/-- A body that only calls the client of its session. -/
theorem inSession {e : Endpoint} {start : κ} {body : Session → Dialogue (κ × Except Failure α)}
    (hbody : ∀ session, (body session).AsksOnly (Request.IsCallOf session.client)) :
    KeepsSessions (inSession e start body) := by
  intro t out h
  cases h.inSession with
  | refused f => exact .refused e f .none
  | @opened client t closing inner closed htranscript hclosing =>
    have hsession := Sessions.session e client (htranscript.asks (hbody ⟨e, client⟩)) hclosing .none
    rwa [List.append_nil] at hsession

end Dialogue.KeepsSessions

namespace Attempt.KeepsSessions

theorem pure (a : α) : KeepsSessions (Pure.pure a : Attempt α) := Dialogue.KeepsSessions.done _

theorem throw (f : Failure) : KeepsSessions (throw f : Attempt α) := Dialogue.KeepsSessions.done _

theorem say (level : Level) (source : Source) (text : String) :
    KeepsSessions (Attempt.say level source text) := by
  intro t b h
  cases h with
  | log _ h => exact Dialogue.KeepsSessions.done _ t b h

theorem lift (x : Except Failure α) : KeepsSessions (liftM x : Attempt α) := by
  cases x <;> exact Dialogue.KeepsSessions.done _

/-- Two attempts one after the other hold the sessions of the first and then those of the second. -/
theorem bind {a : Attempt α} {f : α → Attempt β} (ha : KeepsSessions a) (hf : ∀ x, KeepsSessions (f x)) :
    KeepsSessions (a >>= f) := by
  show Dialogue.KeepsSessions (a >>= f).run
  rw [ExceptT.run_bind]
  refine Dialogue.KeepsSessions.bind ha fun x => ?_
  cases x with
  | error e => exact Dialogue.KeepsSessions.done _
  | ok x => exact hf x

/-- A handler takes over once the sessions of what it handles are closed. -/
theorem handle {kind : Kind} {handler : Failure → Attempt α} {a : Attempt α} (ha : KeepsSessions a)
    (hhandler : ∀ f, KeepsSessions (handler f)) : KeepsSessions (a.handle kind handler) := by
  show Dialogue.KeepsSessions (ExceptT.run (tryCatch a _))
  rw [ExceptT.run_tryCatch]
  refine Dialogue.KeepsSessions.bind ha fun x => ?_
  cases x with
  | ok x => exact Dialogue.KeepsSessions.done _
  | error e =>
    show KeepsSessions (if e.kind.isA kind then handler e else _)
    split
    · exact hhandler e
    · exact throw e

/-- A session whose body calls nothing but its own client is one. -/
theorem attemptInSession {e : Endpoint} {body : Session → Attempt α}
    (hbody : ∀ session, Attempt.AsksOnly (Request.IsCallOf session.client) (body session)) :
    KeepsSessions (attemptInSession e body) := by
  refine Dialogue.KeepsSessions.bind ?_ fun _ => .done _
  exact .inSession fun session => .bind (hbody session) fun _ => .done _

end Attempt.KeepsSessions

/-- A call of the session's own client is one. -/
theorem Session.call_asks (session : Session) (c : Call) :
    Attempt.AsksOnly (Request.IsCallOf session.client) (session.call c) := .call rfl

end SchemaCatalog
