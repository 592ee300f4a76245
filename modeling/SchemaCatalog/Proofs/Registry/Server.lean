/-
  What a server answers, with faults and without.

  1. **Healthy servers.**  A server that is not down and has no faults answers every call as its registry
     does, opens every client and closes every client.

  2. **What can go wrong.**  `FaultsAre P` says where the faults of a server strike and what they raise.
     Such a server performs a call as its registry does, or the call is struck and changes nothing; opening
     and closing a client never touches the registry.

  3. **Losses.**  The failures by which a registry is lost are those of the system (it cannot be reached)
     and those that the registry itself raises for a group that is gone.  A server whose faults raise
     nothing else, and none of them at the closing of a client, may fail to answer a reading call, but
     whatever it answers is what its registry says.

  4. **Listings.**  The groups are passed one by one when they are listed, so a fault that is due at any of
     them keeps the listing from its end.

  Faults are passed one by one and change only how often they still strike, so a property of what they
  raise and where holds of them as long as the server runs.
-/
import SchemaCatalog.Proofs.Session
import SchemaCatalog.Registry.Server
import SchemaCatalog.Proofs.Registry.Basic

namespace SchemaCatalog

/-! ## Losses -/

namespace Failure

/-- Whether a failure of a client means that the registry, or a part of it, is lost. -/
def IsLoss (f : Failure) : Prop :=
  f.kind.isA .system ∨ f.kind.isA .registryUnreachable ∨ f.kind.isA .registryNotFound

instance (f : Failure) : Decidable f.IsLoss := inferInstanceAs (Decidable (_ ∨ _ ∨ _))

/-- Whether a failure is one of the two by which operations learn of a loss. -/
def TellsLoss (f : Failure) : Prop := f.kind.isA .registryUnreachable ∨ f.kind.isA .registryNotFound

/-- A loss is told as one. -/
theorem IsLoss.told {f : Failure} (h : f.IsLoss) (e : Endpoint) : (e.told f).TellsLoss := by
  unfold Endpoint.told
  split
  · exact .inl rfl
  · rename_i hsystem
    exact h.resolve_left hsystem

end Failure

/-! ## Faults that strike -/

/-- A fault strikes at a point: it is about the point, lets nothing more go by, and has strikes left. -/
def Fault.IsDue (point : Point) (group? : Option String) (f : Fault) : Prop :=
  f.isAt point group? = true ∧ f.skip = 0 ∧ 0 < f.times

/-- The fault after a point at which it did not strike. -/
def Fault.passed (point : Point) (group? : Option String) (f : Fault) : Fault :=
  if f.isAt point group? = true ∧ 0 < f.skip then { f with skip := f.skip - 1 } else f

/-- A fault strikes only at its own point. -/
theorem Fault.IsDue.point_eq {point : Point} {group? : Option String} {f : Fault} (h : f.IsDue point group?) :
    f.point = point := by
  have hat := h.1
  rw [Fault.isAt, Bool.and_eq_true, beq_iff_eq] at hat
  exact hat.1

section Strike

variable {point : Point} {group? : Option String} {f : Fault} {fs : List Fault}

/-- A fault that is due strikes, and those behind it are left alone. -/
theorem strike_of_isDue (h : f.IsDue point group?) :
    strike point group? (f :: fs) = (some f.failure, { f with times := f.times - 1 } :: fs) := by
  obtain ⟨hat, hskip, htimes⟩ := h
  rw [strike, if_pos hat, if_neg (by omega), if_pos htimes]

/-- A fault that is not due is passed. -/
theorem strike_of_not_isDue (h : ¬f.IsDue point group?) :
    strike point group? (f :: fs) =
      ((strike point group? fs).1, f.passed point group? :: (strike point group? fs).2) := by
  rw [strike, Fault.passed]
  by_cases hat : f.isAt point group? = true
  · rw [if_pos hat]
    by_cases hskip : 0 < f.skip
    · rw [if_pos hskip, if_pos ⟨hat, hskip⟩]
    · have htimes : ¬0 < f.times := fun htimes => h ⟨hat, by omega, htimes⟩
      rw [if_neg hskip, if_neg htimes, if_neg fun hpassed => hskip hpassed.2]
  · rw [if_neg hat, if_neg fun hpassed => hat hpassed.1]

/-- A failure that is raised belongs to a fault that is due. -/
theorem exists_of_strike {e : Failure} (h : (strike point group? fs).1 = some e) :
    ∃ f ∈ fs, f.IsDue point group? ∧ f.failure = e := by
  induction fs with
  | nil => cases h
  | cons f fs ih =>
    by_cases hdue : f.IsDue point group?
    · rw [strike_of_isDue hdue] at h
      exact ⟨f, List.mem_cons_self, hdue, Option.some.inj h⟩
    · rw [strike_of_not_isDue hdue] at h
      obtain ⟨f', hf', hfound⟩ := ih h
      exact ⟨f', List.mem_cons_of_mem f hf', hfound⟩

/-- Every fault afterwards was there before, but for its counts. -/
theorem exists_of_mem_strike {f' : Fault} (h : f' ∈ (strike point group? fs).2) :
    ∃ f ∈ fs, f'.point = f.point ∧ f'.failure = f.failure := by
  induction fs with
  | nil => cases h
  | cons f fs ih =>
    by_cases hdue : f.IsDue point group?
    · rw [strike_of_isDue hdue] at h
      rcases List.mem_cons.mp h with rfl | h
      · exact ⟨f, List.mem_cons_self, rfl, rfl⟩
      · exact ⟨f', List.mem_cons_of_mem f h, rfl, rfl⟩
    · rw [strike_of_not_isDue hdue] at h
      rcases List.mem_cons.mp h with rfl | h
      · refine ⟨f, List.mem_cons_self, ?_⟩
        unfold Fault.passed
        split <;> exact ⟨rfl, rfl⟩
      · obtain ⟨f₀, hf₀, hsame⟩ := ih h
        exact ⟨f₀, List.mem_cons_of_mem f hf₀, hsame⟩

/-- Where nothing strikes, no fault was due, and every fault has been passed. -/
theorem passed_mem_strike (hf : f ∈ fs) (h : (strike point group? fs).1 = none) :
    ¬f.IsDue point group? ∧ f.passed point group? ∈ (strike point group? fs).2 := by
  induction fs with
  | nil => cases hf
  | cons f' fs ih =>
    by_cases hdue : f'.IsDue point group?
    · rw [strike_of_isDue hdue] at h
      cases h
    · rw [strike_of_not_isDue hdue] at h ⊢
      rcases List.mem_cons.mp hf with rfl | hf
      · exact ⟨hdue, List.mem_cons_self⟩
      · obtain ⟨hnot, hmem⟩ := ih hf h
        exact ⟨hnot, List.mem_cons_of_mem _ hmem⟩

end Strike

/-- The points that are passed on the way of a call: its own and, in a listing, one at each element. -/
def Call.points : Call → List Point
  | .listGroups => [.listGroups, .eachGroup]
  | .getSchemas _ => [.getSchemas, .eachSchema]
  | c => [c.point]

theorem Call.point_mem_points (c : Call) : c.point ∈ c.points := by
  cases c <;> exact List.mem_cons_self

namespace Server

/-! ## Passing a point -/

@[simp] theorem pass_registry (point : Point) (group? : Option String) (s : Server) :
    (s.pass point group?).2.registry = s.registry := rfl

/-- Passing points changes nothing but the faults. -/
theorem exists_passEach (point : Point) (group? : Option String) :
    ∀ (n : Nat) (s : Server), ∃ faults, (s.passEach point group? n).2 = { s with faults }
  | 0, _ => ⟨_, rfl⟩
  | n + 1, s => by
    have hpass : (s.pass point group?).2 = { s with faults := (strike point group? s.faults).2 } := rfl
    rw [passEach]
    split
    · rename_i h
      rw [h] at hpass
      exact ⟨_, hpass⟩
    · rename_i s' h
      rw [h] at hpass
      obtain ⟨faults, heach⟩ := exists_passEach point group? n s'
      obtain rfl : s' = _ := hpass
      exact ⟨faults, heach⟩

@[simp] theorem passEach_registry (point : Point) (group? : Option String) (n : Nat) (s : Server) :
    (s.passEach point group? n).2.registry = s.registry := by
  obtain ⟨faults, heach⟩ := exists_passEach point group? n s
  rw [heach]

/-- A fault that is due before the last element has been passed keeps a listing from its end. -/
theorem passEach_some {point : Point} {group? : Option String} {n : Nat} {s : Server} {f : Fault}
    (hf : f ∈ s.faults) (hat : f.isAt point group? = true) (htimes : 0 < f.times) (hskip : f.skip ≤ n) :
    ∃ e, (s.passEach point group? n).1 = some e := by
  induction n generalizing s f with
  | zero =>
    cases h : (s.pass point group?).1 with
    | some e => exact ⟨e, h⟩
    | none => exact absurd ⟨hat, Nat.le_zero.mp hskip, htimes⟩ (passed_mem_strike hf h).1
  | succ n ih =>
    rw [passEach]
    split
    · rename_i e s' _
      exact ⟨e, rfl⟩
    · rename_i s' h
      have hnone : (strike point group? s.faults).1 = none := congrArg Prod.fst h
      have hfaults : s'.faults = (strike point group? s.faults).2 :=
        (congrArg (fun p => p.2.faults) h).symm
      obtain ⟨hnot, hpassed⟩ := passed_mem_strike hf hnone
      rw [← hfaults] at hpassed
      -- the fault was not due, so it still had passages to let go by, and now has one fewer
      have hmore : 0 < f.skip := Nat.pos_of_ne_zero fun hzero => hnot ⟨hat, hzero, htimes⟩
      rw [Fault.passed, if_pos ⟨hat, hmore⟩] at hpassed
      exact ih hpassed hat htimes (by show f.skip - 1 ≤ n; omega)

/-! ## Answering -/

/-- The server once a request has been recorded. -/
def asked (request : Request) (s : Server) : Server := { s with requests := request :: s.requests }

theorem answer_opening (e : Endpoint) (s : Server) :
    s.answer (.opening e) =
      (match (s.asked (.opening e)).pass .opening none with
        | (some f, s) => (Except.error f, s)
        | (none, s) => (Except.ok ⟨s.opened, s.closable⟩, { s with opened := s.opened + 1 }) :
        Except Failure Client × Server) := rfl

theorem answer_closing (client : Client) (s : Server) :
    s.answer (.closing client) =
      (match (s.asked (.closing client)).pass .closing none with
        | (some f, s) => (Except.error f, s)
        | (none, s) => (Except.ok (), s) : Except Failure Unit × Server) := rfl

theorem answer_call (client : Client) (c : Call) (s : Server) :
    s.answer (.call client c) =
      (match (s.asked (.call client c)).pass c.point c.group? with
        | (some f, s) => (Except.error f, s)
        | (none, s) => s.reply c : Except Failure c.Reply × Server) := rfl

/-- Replying changes nothing but the registry and the faults. -/
theorem exists_reply (c : Call) (s : Server) : ∃ registry faults, (s.reply c).2 = { s with registry, faults } := by
  unfold Server.reply
  split
  · split
    · exact ⟨_, _, rfl⟩
    · obtain ⟨faults, heach⟩ := exists_passEach .eachGroup none s.registry.groups.length s
      split
      · rename_i h
        rw [h] at heach
        exact ⟨_, faults, heach⟩
      · rename_i h
        rw [h] at heach
        subst heach
        exact ⟨_, faults, rfl⟩
  · rename_i group
    split
    · exact ⟨_, _, rfl⟩
    · split
      · exact ⟨_, _, rfl⟩
      · rename_i g _
        obtain ⟨faults, heach⟩ := exists_passEach .eachSchema (some group) g.schemas.length s
        split
        · rename_i h
          rw [h] at heach
          exact ⟨_, faults, heach⟩
        · rename_i h
          rw [h] at heach
          subst heach
          exact ⟨_, faults, rfl⟩
  · split <;> exact ⟨_, _, rfl⟩

/-- Replying records nothing. -/
theorem reply_requests (c : Call) (s : Server) : (s.reply c).2.requests = s.requests := by
  obtain ⟨registry, faults, hreply⟩ := exists_reply c s
  rw [hreply]

/-- Every request is recorded, whatever becomes of it. -/
theorem answer_requests (request : Request) (s : Server) :
    (s.answer request).2.requests = request :: s.requests := by
  cases request with
  | opening e =>
    rw [answer_opening]
    rcases h : (s.asked (.opening e)).pass .opening none with ⟨e' | e', s'⟩
    · exact congrArg (fun p => p.2.requests) h.symm
    · exact congrArg (fun p => p.2.requests) h.symm
  | closing client =>
    rw [answer_closing]
    rcases h : (s.asked (.closing client)).pass .closing none with ⟨e' | e', s'⟩
    · exact congrArg (fun p => p.2.requests) h.symm
    · exact congrArg (fun p => p.2.requests) h.symm
  | call client c =>
    rw [answer_call]
    rcases h : (s.asked (.call client c)).pass c.point c.group? with ⟨e' | e', s'⟩
    · exact (reply_requests c s').trans (congrArg (fun p => p.2.requests) h.symm)
    · exact congrArg (fun p => p.2.requests) h.symm

/-! ## Healthy servers -/

/-- A server that nothing is wrong with. -/
structure Healthy (s : Server) : Prop where
  up : s.down = false
  faultless : s.faults = []

theorem Healthy.pass {s : Server} (h : s.Healthy) (point : Point) (group? : Option String) :
    s.pass point group? = (none, s) := by
  unfold Server.pass
  rw [h.faultless, strike]
  exact congrArg (Prod.mk none) (by rw [← h.faultless])

theorem Healthy.passEach {s : Server} (h : s.Healthy) (point : Point) (group? : Option String) (n : Nat) :
    s.passEach point group? n = (none, s) := by
  induction n with
  | zero => exact h.pass point group?
  | succ n ih =>
    rw [Server.passEach, h.pass]
    exact ih

/-- A server with nothing wrong replies as its registry does. -/
theorem Healthy.reply {s : Server} (h : s.Healthy) (c : Call) : s.reply c = s.act c := by
  have hup : ¬s.down = true := by rw [h.up]; exact Bool.false_ne_true
  unfold Server.reply
  split
  · rw [if_neg hup, h.passEach]
  · rename_i group
    rw [if_neg hup]
    cases hg : s.registry.group? group with
    | none => simp only [Registry.findGroup_of_none hg, act,
        Registry.perform_of_none (c := .getSchemas group) rfl hg]
    | some g => simp only [Registry.findGroup_of_some hg, h.passEach]
  · rw [if_neg hup]

theorem Healthy.asked {s : Server} (h : s.Healthy) (request : Request) : (s.asked request).Healthy :=
  ⟨h.up, h.faultless⟩

/-- The answer to a call, and the server afterwards, which is healthy still. -/
theorem Healthy.answer_call {s : Server} (h : s.Healthy) (client : Client) (c : Call) :
    ∃ s', s.answer (.call client c) = ((s.registry.perform c).1, s') ∧ s'.Healthy ∧
      s'.registry = (s.registry.perform c).2 := by
  refine ⟨{ s.asked (.call client c) with registry := (s.registry.perform c).2 }, ?_,
    ⟨h.up, h.faultless⟩, rfl⟩
  rw [Server.answer_call, (h.asked _).pass]
  exact (h.asked _).reply c

theorem Healthy.answer_opening {s : Server} (h : s.Healthy) (e : Endpoint) :
    ∃ client s', s.answer (.opening e) = (.ok client, s') ∧ s'.Healthy ∧ s'.registry = s.registry := by
  refine ⟨⟨s.opened, s.closable⟩, { s.asked (.opening e) with opened := s.opened + 1 }, ?_,
    ⟨h.up, h.faultless⟩, rfl⟩
  rw [Server.answer_opening, (h.asked _).pass]
  rfl

theorem Healthy.answer_closing {s : Server} (h : s.Healthy) (client : Client) :
    ∃ s', s.answer (.closing client) = (.ok (), s') ∧ s'.Healthy ∧ s'.registry = s.registry := by
  refine ⟨s.asked (.closing client), ?_, h.asked _, rfl⟩
  rw [Server.answer_closing, (h.asked _).pass]
  rfl

/-- The server with nothing wrong. -/
def mended (s : Server) : Server := { s with down := false, faults := [] }

theorem healthy_mended (s : Server) : s.mended.Healthy := ⟨rfl, rfl⟩

@[simp] theorem mended_registry (s : Server) : s.mended.registry = s.registry := rfl

/-! ## Servers by what can go wrong -/

/-- Every fault strikes where `P` allows it, and raises there what `P` allows. -/
def FaultsAre (P : Point → Failure → Prop) (s : Server) : Prop := ∀ f ∈ s.faults, P f.point f.failure

/-- A failure of a call that does not come from the registry: a fault on its way raises it, or a server that is
down. -/
def Raises (P : Point → Failure → Prop) (c : Call) (f : Failure) : Prop :=
  f = refused ∨ ∃ point ∈ c.points, P point f

/-- A call is performed by the registry `r`, or it fails before it gets there and changes nothing. -/
def Performs (P : Point → Failure → Prop) (r : Registry) (c : Call) (p : Except Failure c.Reply × Server) :
    Prop :=
  p.2.FaultsAre P ∧
    ((p.1, p.2.registry) = r.perform c ∨ (∃ f, Raises P c f ∧ p.1 = .error f) ∧ p.2.registry = r)

section Faults

variable {P : Point → Failure → Prop} {s : Server}

theorem FaultsAre.pass (h : s.FaultsAre P) (point : Point) (group? : Option String) :
    (s.pass point group?).2.FaultsAre P ∧ ∀ e, (s.pass point group?).1 = some e → P point e := by
  constructor
  · intro g hg
    obtain ⟨f, hf, hpoint, hfailure⟩ := exists_of_mem_strike hg
    rw [hpoint, hfailure]
    exact h f hf
  · intro e he
    obtain ⟨f, hf, hdue, rfl⟩ := exists_of_strike he
    rw [← hdue.point_eq]
    exact h f hf

theorem FaultsAre.passEach (point : Point) (group? : Option String) :
    ∀ (n : Nat) {s : Server}, s.FaultsAre P →
      (s.passEach point group? n).2.FaultsAre P ∧ ∀ e, (s.passEach point group? n).1 = some e → P point e
  | 0, _, h => h.pass point group?
  | n + 1, s, h => by
    have hpass := h.pass point group?
    rw [Server.passEach]
    split
    · rename_i e s' heq
      rw [heq] at hpass
      exact hpass
    · rename_i s' heq
      rw [heq] at hpass
      exact FaultsAre.passEach point group? n hpass.1

/-- Goes on once points have been passed, unless a failure was raised at one of them. -/
def goOn {α : Type} (next : Server → Except Failure α × Server) :
    Option Failure × Server → Except Failure α × Server
  | (some e, s) => (.error e, s)
  | (none, s) => next s

theorem performs_goOn {r : Registry} {c : Call} {point : Point}
    {next : Server → Except Failure c.Reply × Server} {p : Option Failure × Server} (hpoint : point ∈ c.points)
    (hp : p.2.FaultsAre P ∧ ∀ e, p.1 = some e → P point e) (hr : p.2.registry = r)
    (hnext : ∀ s : Server, s.FaultsAre P → s.registry = r → Performs P r c (next s)) :
    Performs P r c (goOn next p) := by
  obtain ⟨e | e, s⟩ := p
  · exact hnext s hp.1 hr
  · exact ⟨hp.1, .inr ⟨⟨e, .inr ⟨point, hpoint, hp.2 e rfl⟩, rfl⟩, hr⟩⟩

/-- A reply comes from the registry, unless the server is down or a listing is struck. -/
theorem FaultsAre.reply (h : s.FaultsAre P) (c : Call) : Performs P s.registry c (s.reply c) := by
  have hdown : Performs P s.registry c (.error refused, s) := ⟨h, .inr ⟨⟨refused, .inl rfl, rfl⟩, rfl⟩⟩
  have hact : ∀ s' : Server, s'.FaultsAre P → s'.registry = s.registry → Performs P s.registry c (s'.act c) := by
    intro s' hs' hr
    rw [← hr]
    exact ⟨hs', .inl rfl⟩
  -- a listing is passed element by element before the registry is asked
  have heach := fun point group? n (hpoint : point ∈ c.points) =>
    performs_goOn hpoint (FaultsAre.passEach point group? n h) (passEach_registry point group? n s) hact
  unfold Server.reply
  split
  · split
    · exact hdown
    · exact heach .eachGroup none s.registry.groups.length (by decide)
  · rename_i group
    split
    · exact hdown
    · cases hg : s.registry.group? group with
      | none =>
        rw [Registry.findGroup_of_none hg]
        exact ⟨h, .inl (by rw [Registry.perform_of_none rfl hg])⟩
      | some g =>
        rw [Registry.findGroup_of_some hg]
        exact heach .eachSchema (some group) g.schemas.length (List.mem_cons_of_mem _ List.mem_cons_self)
  · split
    · exact hdown
    · exact hact s h rfl

theorem FaultsAre.asked (h : s.FaultsAre P) (request : Request) : (s.asked request).FaultsAre P := h

/-- A call is performed, or struck on its way. -/
theorem FaultsAre.answer_call (h : s.FaultsAre P) (client : Client) (c : Call) :
    Performs P s.registry c (s.answer (.call client c)) := by
  have hpass := (h.asked (.call client c)).pass c.point c.group?
  rw [Server.answer_call]
  refine performs_goOn c.point_mem_points hpass (pass_registry c.point c.group? _) fun s' hs' hr => ?_
  have hreply := hs'.reply c
  rwa [hr] at hreply

/-- What succeeds and leaves registry and faults alone fails only if its point is struck. -/
theorem FaultsAre.goOn_pass {α : Type} (h : s.FaultsAre P) (point : Point)
    {next : Server → Except Failure α × Server}
    (hnext : ∀ s', ∃ a s'', next s' = (.ok a, s'') ∧ s''.faults = s'.faults ∧ s''.registry = s'.registry) :
    (goOn next (s.pass point none)).2.FaultsAre P ∧ (goOn next (s.pass point none)).2.registry = s.registry ∧
      ∀ f, (goOn next (s.pass point none)).1 = .error f → P point f := by
  have hpass := h.pass point none
  have hregistry := pass_registry point none s
  generalize s.pass point none = p at hpass hregistry
  obtain ⟨e | e, s'⟩ := p
  · obtain ⟨a, s'', hok, hfaults, hr⟩ := hnext s'
    have hgoOn : goOn next (none, s') = (.ok a, s'') := hok
    rw [hgoOn]
    refine ⟨?_, hr.trans hregistry, fun _ hf => by cases hf⟩
    intro g hg
    rw [hfaults] at hg
    exact hpass.1 g hg
  · refine ⟨hpass.1, hregistry, ?_⟩
    rintro _ ⟨⟩
    exact hpass.2 e rfl

/-- Opening a client does not touch the registry. -/
theorem FaultsAre.answer_opening (h : s.FaultsAre P) (e : Endpoint) :
    (s.answer (.opening e)).2.FaultsAre P ∧ (s.answer (.opening e)).2.registry = s.registry ∧
      ∀ f, (s.answer (.opening e)).1 = .error f → P .opening f := by
  rw [Server.answer_opening]
  exact (h.asked (.opening e)).goOn_pass .opening fun s' => ⟨⟨s'.opened, s'.closable⟩, _, rfl, rfl, rfl⟩

/-- Nor does closing one. -/
theorem FaultsAre.answer_closing (h : s.FaultsAre P) (client : Client) :
    (s.answer (.closing client)).2.FaultsAre P ∧ (s.answer (.closing client)).2.registry = s.registry ∧
      ∀ f, (s.answer (.closing client)).1 = .error f → P .closing f := by
  rw [Server.answer_closing]
  exact (h.asked (.closing client)).goOn_pass .closing fun s' => ⟨(), s', rfl, rfl, rfl⟩

end Faults

/-! ## Servers whose faults are losses -/

/-- Every fault raises a loss, and none at the closing of a client. -/
def OnlyLosses (s : Server) : Prop := ∀ f ∈ s.faults, f.point ≠ .closing ∧ f.failure.IsLoss

/-- What may fail on such a server: anything but a closing, by a loss. -/
def Lossy (point : Point) (f : Failure) : Prop := point ≠ .closing ∧ f.IsLoss

theorem OnlyLosses.faultsAre {s : Server} (h : s.OnlyLosses) : s.FaultsAre Lossy := h

theorem isLoss_refused : refused.IsLoss := .inl rfl

/-- What such a server raises is a loss. -/
theorem isLoss_of_raises {c : Call} {f : Failure} (h : Raises Lossy c f) : f.IsLoss := by
  obtain rfl | ⟨point, -, -, hf⟩ := h
  · exact isLoss_refused
  · exact hf

/-- Nothing but losses can happen to a server with the registry `r`. -/
def LosesOnly (r : Registry) (s : Server) : Prop := s.OnlyLosses ∧ s.registry = r

/-- The answer to a reading call is the true one or a loss. -/
theorem OnlyLosses.answer_call {s : Server} (h : s.OnlyLosses) (client : Client) {c : Call}
    (hc : c.isReading = true) :
    Meets (LosesOnly s.registry) Failure.IsLoss (s.registry.perform c).1 (s.answer (.call client c)) := by
  obtain ⟨hfaults, hperform | ⟨⟨f, hf, herror⟩, hr⟩⟩ := h.faultsAre.answer_call client c
  · rw [← hperform]
    refine ⟨⟨hfaults, ?_⟩, .inl rfl⟩
    rw [← Registry.perform_reading hc s.registry, ← hperform]
  · exact ⟨⟨hfaults, hr⟩, .inr ⟨f, herror, isLoss_of_raises hf⟩⟩

/-- A client is opened, or that is a loss. -/
theorem OnlyLosses.answer_opening {s : Server} (h : s.OnlyLosses) (e : Endpoint) :
    ∃ client, Meets (LosesOnly s.registry) Failure.IsLoss (.ok client) (s.answer (.opening e)) := by
  obtain ⟨hfaults, hr, herror⟩ := h.faultsAre.answer_opening e
  cases hopened : (s.answer (.opening e)).1 with
  | error f => exact ⟨⟨0, false⟩, ⟨hfaults, hr⟩, .inr ⟨f, hopened, (herror f hopened).2⟩⟩
  | ok client => exact ⟨client, ⟨hfaults, hr⟩, .inl hopened⟩

/-- No fault keeps a client from being closed. -/
theorem OnlyLosses.answer_closing {s : Server} (h : s.OnlyLosses) (client : Client) :
    (s.answer (.closing client)).1 = .ok () := by
  obtain ⟨-, -, herror⟩ := h.faultsAre.answer_closing client
  cases hclosed : (s.answer (.closing client)).1 with
  | error f => exact absurd rfl (herror f hclosed).1
  | ok _ => rfl

/-! ## A listing that fails -/

/-- A fault waits in a listing of the groups: it is due before the last group has been passed. -/
def WaitsInListing (s : Server) (f : Fault) : Prop :=
  f ∈ s.faults ∧ f.point = .eachGroup ∧ f.group? = none ∧ 0 < f.times ∧
    f.skip ≤ s.registry.groups.length

/-- Other points are passed without touching the fault. -/
theorem WaitsInListing.pass {f : Fault} {s s' : Server} (h : s.WaitsInListing f) {point : Point}
    (hpoint : point ≠ .eachGroup) {group? : Option String} (hpass : s.pass point group? = (none, s')) :
    s'.WaitsInListing f := by
  obtain ⟨hmem, heach, hgroup, htimes, hskip⟩ := h
  -- a fault that is not at this point is passed as it is
  have hat : ¬f.isAt point group? = true := by
    rw [Fault.isAt, heach, beq_eq_false_iff_ne.mpr (Ne.symm hpoint), Bool.false_and]
    exact Bool.false_ne_true
  have hnone : (strike point group? s.faults).1 = none := congrArg Prod.fst hpass
  have hpassed := (passed_mem_strike hmem hnone).2
  rw [Fault.passed, if_neg fun hat' => hat hat'.1] at hpassed
  obtain rfl : (s.pass point group?).2 = s' := by rw [hpass]
  exact ⟨hpassed, heach, hgroup, htimes, hskip⟩

theorem WaitsInListing.reply {f : Fault} {s : Server} (h : s.WaitsInListing f) :
    ∃ e, (s.reply .listGroups).1 = .error e := by
  obtain ⟨hmem, heach, hgroup, htimes, hskip⟩ := h
  have hat : f.isAt .eachGroup none = true := by
    rw [Fault.isAt, heach, hgroup]
    rfl
  obtain ⟨e, he⟩ := passEach_some hmem hat htimes hskip
  by_cases hdown : s.down = true
  · exact ⟨refused, by simp only [Server.reply, if_pos hdown]⟩
  · refine ⟨e, ?_⟩
    simp only [Server.reply, if_neg hdown]
    split
    · rename_i e' s' heq
      rw [heq] at he
      rw [Option.some.inj he]
    · rename_i s' heq
      rw [heq] at he
      cases he

/-- A listing in which a fault waits fails. -/
theorem WaitsInListing.answer_call {f : Fault} {s : Server} (h : s.WaitsInListing f) (client : Client) :
    ∃ e, (s.answer (.call client .listGroups)).1 = .error e := by
  have hasked : (s.asked (.call client .listGroups)).WaitsInListing f := h
  rw [Server.answer_call]
  split
  · rename_i e s' _
    exact ⟨e, rfl⟩
  · rename_i s' heq
    exact (hasked.pass (by decide) heq).reply

/-- Opening a client leaves the fault waiting. -/
theorem WaitsInListing.answer_opening {f : Fault} {s s' : Server} (h : s.WaitsInListing f) {e : Endpoint}
    {client : Client} (hopened : s.answer (.opening e) = (.ok client, s')) : s'.WaitsInListing f := by
  have hasked : (s.asked (.opening e)).WaitsInListing f := h
  rw [Server.answer_opening] at hopened
  split at hopened
  · cases hopened
  · rename_i s₁ heq
    have hwaits := hasked.pass (by decide) heq
    cases hopened
    exact hwaits

end Server

end SchemaCatalog
