/-
  A registry that other clients use, too.

  Between any two requests of an operation other clients can make any calls; a call is performed as a whole,
  with none of another client inside it.  A `Shared` registry is a server together with what is called by others
  before each of the coming requests; it does not matter who they are, and since a call that fails changes
  nothing, it does not matter either whether what strikes our requests strikes theirs.

  Everything that happens is noted as a `Moment`: whose deed it is, and the registry right before and after it.
  Each moment begins where the one before it ended, and what one of them can be is said once (`Moment.Happens`).
  The moments of an operation's run are such a history, with the operation's exchanges in it, in their order
  (`Dialogue.goesOn`).
-/
import SchemaCatalog.Proofs.Registry.Ids
import SchemaCatalog.Proofs.Exchanges

namespace SchemaCatalog

variable {α : Type} {P : Point → Failure → Prop} {r r' : Registry}

/-! ## Moments -/

/-- Something that happens to a registry: an exchange of the operation that is looked at, or a call of another
client. -/
inductive Deed where
  | own (x : Exchange)
  | other (c : Call)

/-- A deed, and the registry right before and after it. -/
structure Moment where
  deed : Deed
  before : Registry
  after : Registry

namespace Moment

def own? (m : Moment) : Option Exchange :=
  match m.deed with
  | .own x => some x
  | .other _ => none

theorem own?_eq_some {m : Moment} {x : Exchange} : m.own? = some x ↔ m.deed = .own x := by
  obtain ⟨deed, r, r'⟩ := m
  cases deed with
  | own y => simp [own?]
  | other c => simp [own?]

/-- A call of one's own is answered at the moment. -/
def Granted (m : Moment) (c : Call) (y : c.Reply) : Prop := ∃ client, m.deed = .own ⟨.call client c, .ok y⟩

/-- The groups are listed, as they are at the moment. -/
def ListsGroups (m : Moment) : Prop := m.Granted .listGroups (m.before.groups.map fun g => (g.name, g.properties))

/-- The schemas of a group are listed, as they are at the moment. -/
def Lists (m : Moment) (group : String) : Prop := m.Granted (.getSchemas group) (m.before.schemasOf group)

/-- The moment adds a schema to a group. -/
def Adds (m : Moment) (group : String) (v : StoredSchema) : Prop :=
  ¬m.before.Stores group v ∧ m.after.Stores group v

/-- The moment removes a schema from a group. -/
def Removes (m : Moment) (group : String) (v : StoredSchema) : Prop :=
  m.before.Stores group v ∧ ¬m.after.Stores group v

/-- Where nothing changes, nothing is removed. -/
theorem not_removes_of_eq {m : Moment} (h : m.after = m.before) (group : String) (v : StoredSchema) :
    ¬m.Removes group v := by
  rintro ⟨hbefore, hafter⟩
  rw [h] at hafter
  exact hafter hbefore

/-- What a moment can be: a call of another client is performed, one of one's own is performed or struck on its
way, and opening and closing a client leaves the registry alone. -/
def Happens (P : Point → Failure → Prop) (m : Moment) : Prop :=
  match m.deed with
  | .other c => m.after = (m.before.perform c).2
  | .own ⟨.call _ c, x⟩ =>
    (x, m.after) = m.before.perform c ∨ (∃ f, Server.Raises P c f ∧ x = .error f) ∧ m.after = m.before
  | .own ⟨.opening _, x⟩ => m.after = m.before ∧ ∀ f, x = .error f → P .opening f
  | .own ⟨.closing _, x⟩ => m.after = m.before ∧ ∀ f, x = .error f → P .closing f

/-- Whatever happens is what some call makes of the registry. -/
theorem Happens.changed {m : Moment} (h : m.Happens P) : ∃ c, Registry.Changed m.before c m.after := by
  obtain ⟨deed, r, r'⟩ := m
  -- where nothing changes, a call that only reads would do
  have hsame : r' = r → ∃ c, Registry.Changed r c r' := by
    rintro rfl
    exact ⟨.listGroups, .nothing _⟩
  cases deed with
  | other c =>
    obtain rfl : r' = (r.perform c).2 := h
    exact ⟨c, r.changed_perform c⟩
  | own x =>
    obtain ⟨request, reply⟩ := x
    cases request with
    | opening e => exact hsame h.1
    | closing client => exact hsame h.1
    | call client c =>
      obtain hperform | ⟨-, hr'⟩ := h
      · obtain rfl : r' = (r.perform c).2 := congrArg Prod.snd hperform
        exact ⟨c, r.changed_perform c⟩
      · exact hsame hr'

theorem Happens.since {m : Moment} (h : m.Happens P) : Registry.Since m.before m.after := by
  obtain ⟨c, hc⟩ := h.changed
  exact .of_changed hc

/-- What is added has a new id. -/
theorem Happens.nextId_le_of_adds {m : Moment} (h : m.Happens P) {group : String} {v : StoredSchema}
    (hv : m.Adds group v) : m.before.nextId ≤ v.version.id :=
  Nat.le_of_not_lt fun hid => hv.1 (h.since.old hv.2 hid)

/-- A call of one's own that is answered has been performed. -/
theorem Happens.granted {m : Moment} (h : m.Happens P) {c : Call} {y : c.Reply} (hm : m.Granted c y) :
    m.before.perform c = (.ok y, m.after) := by
  obtain ⟨deed, r, r'⟩ := m
  obtain ⟨client, hdeed⟩ := hm
  cases hdeed
  obtain hperform | ⟨⟨f, -, hf⟩, -⟩ := h
  · exact hperform.symm
  · cases hf

/-- What a listing of a group gives is what the group holds. -/
theorem Happens.lists {m : Moment} (h : m.Happens P) {group : String} {schemas : List StoredSchema}
    (hm : m.Granted (.getSchemas group) schemas) :
    m.Lists group ∧ schemas = m.before.schemasOf group ∧ m.after = m.before ∧
      ∀ v ∈ schemas, m.before.Stores group v := by
  have hperform := h.granted hm
  cases hg : m.before.group? group with
  | none =>
    rw [Registry.perform_of_none rfl hg] at hperform
    cases hperform
  | some g =>
    rw [Registry.perform_getSchemas hg] at hperform
    obtain ⟨hschemas, hafter⟩ := Prod.mk.inj hperform
    obtain rfl : g.schemas = schemas := Except.ok.inj hschemas
    have hof : g.schemas = m.before.schemasOf group := (Registry.schemasOf_of_some hg).symm
    refine ⟨?_, hof, hafter.symm, fun v hv => Registry.stores_of_group? hg hv⟩
    rw [Lists, ← hof]
    exact hm

/-- What a listing of the groups gives are the groups. -/
theorem Happens.listsGroups {m : Moment} (h : m.Happens P) {groups : List (String × GroupProperties)}
    (hm : m.Granted .listGroups groups) :
    m.ListsGroups ∧ groups.map Prod.fst = m.before.groups.map Group.name := by
  obtain rfl : (m.before.groups.map fun g => (g.name, g.properties)) = groups :=
    Except.ok.inj (congrArg Prod.fst (h.granted hm))
  exact ⟨hm, List.map_map⟩

/-- On a server whose faults are losses, a call of one's own fails by one: the server is lost or the group is. -/
theorem Happens.isLoss {m : Moment} (h : m.Happens Server.Lossy) {client : Client} {c : Call} {f : Failure}
    (hm : m.deed = .own ⟨.call client c, .error f⟩) : f.IsLoss := by
  obtain ⟨deed, r, r'⟩ := m
  cases hm
  obtain hperform | ⟨⟨f', hf', hf⟩, -⟩ := h
  · -- the registry itself only fails for a group or a type that is not there
    obtain ⟨group, -, rfl | ⟨type, rfl⟩⟩ := Registry.perform_error hperform.symm
    · exact .inr (.inr rfl)
    · exact .inr (.inr rfl)
  · cases hf
    exact Server.isLoss_of_raises hf'

theorem Happens.isLoss_opening {m : Moment} (h : m.Happens Server.Lossy) {e : Endpoint} {f : Failure}
    (hm : m.deed = .own ⟨.opening e, .error f⟩) : f.IsLoss := by
  obtain ⟨deed, r, r'⟩ := m
  cases hm
  exact (h.2 f rfl).2

/-- There, closing a client does not fail. -/
theorem Happens.closed {m : Moment} (h : m.Happens Server.Lossy) {client : Client} {x : Except Failure Unit}
    (hm : m.deed = .own ⟨.closing client, x⟩) : x = .ok () := by
  obtain ⟨deed, r, r'⟩ := m
  cases hm
  cases x with
  | ok _ => rfl
  | error f => exact absurd rfl (h.2 f rfl).1

/-- A call of one's own that is not answered has changed nothing, if it has been performed at all. -/
theorem Happens.after_eq {m : Moment} (h : m.Happens P) {client : Client} {c : Call} {x : Except Failure c.Reply}
    (hm : m.deed = .own ⟨.call client c, x⟩) : m.after = (m.before.perform c).2 ∨ m.after = m.before := by
  obtain ⟨deed, r, r'⟩ := m
  cases hm
  obtain hperform | ⟨-, hr'⟩ := h
  · exact .inl (congrArg Prod.snd hperform)
  · exact .inr hr'

/-- A request of one's own that only reads changes nothing. -/
theorem Happens.reading {m : Moment} (h : m.Happens P) {x : Exchange} (hm : m.deed = .own x)
    (hx : x.request.IsReading) : m.after = m.before := by
  obtain ⟨request, reply⟩ := x
  cases request with
  | call client c =>
    rcases h.after_eq hm with hr | hr
    · rw [hr, Registry.perform_reading hx]
    · exact hr
  | opening e =>
    obtain ⟨deed, r, r'⟩ := m
    cases hm
    exact h.1
  | closing client =>
    obtain ⟨deed, r, r'⟩ := m
    cases hm
    exact h.1

end Moment

/-! ## Histories -/

/-- Moments that happen one after the other. -/
inductive History (P : Point → Failure → Prop) : Registry → List Moment → Registry → Prop
  | nil (r : Registry) : History P r [] r
  | cons {m : Moment} {t : List Moment} {r' : Registry} (hm : m.Happens P) (h : History P m.after t r') :
    History P m.before (m :: t) r'

namespace History

variable {t t₁ t₂ : List Moment}

theorem append (h₁ : History P r t₁ r') {r'' : Registry} (h₂ : History P r' t₂ r'') :
    History P r (t₁ ++ t₂) r'' := by
  induction h₁ with
  | nil => exact h₂
  | cons hm _ ih => exact .cons hm (ih h₂)

/-- Part of a history is one. -/
theorem of_append (h : History P r (t₁ ++ t₂) r') : ∃ r₁, History P r t₁ r₁ ∧ History P r₁ t₂ r' := by
  induction t₁ generalizing r with
  | nil => exact ⟨r, .nil r, h⟩
  | cons m t₁ ih =>
    cases h with
    | cons hm h =>
      obtain ⟨r₁, h₁, h₂⟩ := ih h
      exact ⟨r₁, .cons hm h₁, h₂⟩

/-- A history at one of its moments: what was before, the moment, and what came after. -/
theorem at_moment {m : Moment} (h : History P r (t₁ ++ m :: t₂) r') :
    History P r t₁ m.before ∧ m.Happens P ∧ History P m.after t₂ r' := by
  obtain ⟨r₁, h₁, h₂⟩ := h.of_append
  cases h₂ with
  | cons hm h₂ => exact ⟨h₁, hm, h₂⟩

theorem happens (h : History P r t r') : ∀ m ∈ t, m.Happens P := by
  intro m hm
  obtain ⟨t₁, t₂, rfl⟩ := List.append_of_mem hm
  exact h.at_moment.2.1

theorem since (h : History P r t r') : Registry.Since r r' := by
  induction h with
  | nil r => exact .refl r
  | cons hm _ ih => exact hm.since.trans ih

theorem numbered (h : History P r t r') (hr : r.Numbered) : r'.Numbered := by
  induction h with
  | nil => exact hr
  | cons hm _ ih =>
    obtain ⟨c, hc⟩ := hm.changed
    exact ih (hr.changed hc)

theorem nodup_names (h : History P r t r') (hd : (r.groups.map Group.name).Nodup) :
    (r'.groups.map Group.name).Nodup := by
  induction h with
  | nil => exact hd
  | cons hm _ ih =>
    obtain ⟨c, hc⟩ := hm.changed
    exact ih (hc.nodup_names hd)

end History

/-- The exchanges in a history are those of its moments. -/
theorem mem_own {t : List Moment} {x : Exchange} : x ∈ t.filterMap Moment.own? ↔ ∃ m ∈ t, m.deed = .own x := by
  simp only [List.mem_filterMap, Moment.own?_eq_some]

/-- An exchange is found among the moments, with those before and after it. -/
theorem exists_moment {t : List Moment} {xs₁ xs₂ : List Exchange} {x : Exchange}
    (h : t.filterMap Moment.own? = xs₁ ++ x :: xs₂) :
    ∃ t₁ m t₂, t = t₁ ++ m :: t₂ ∧ t₁.filterMap Moment.own? = xs₁ ∧ m.deed = .own x ∧
      t₂.filterMap Moment.own? = xs₂ := by
  obtain ⟨t₁, t', rfl, h₁, h'⟩ := List.filterMap_eq_append_iff.mp h
  obtain ⟨others, m, t₂, rfl, hothers, hm, h₂⟩ := List.filterMap_eq_cons_iff.mp h'
  refine ⟨t₁ ++ others, m, t₂, (List.append_assoc _ _ _).symm, ?_, Moment.own?_eq_some.mp hm, h₂⟩
  rw [List.filterMap_append, h₁, List.filterMap_eq_nil_iff.mpr hothers, List.append_nil]

/-- An exchange in a history has happened. -/
theorem History.exists_own {t : List Moment} (h : History P r t r') {x : Exchange}
    (hx : x ∈ t.filterMap Moment.own?) : ∃ m ∈ t, m.Happens P ∧ m.deed = .own x := by
  obtain ⟨m, hm, hdeed⟩ := mem_own.mp hx
  exact ⟨m, hm, h.happens m hm, hdeed⟩

/-- Exchanges that follow one another in a history are found among its moments, in their order. -/
theorem History.exists_owns {t : List Moment} (h : History P r t r') {xs : List Exchange}
    (hxs : xs.Sublist (t.filterMap Moment.own?)) :
    ∃ ms : List Moment, ms.Sublist t ∧ List.Forall₂ (fun x m => m.Happens P ∧ m.deed = .own x) xs ms := by
  induction h generalizing xs with
  | nil =>
    obtain rfl := List.sublist_nil.mp hxs
    exact ⟨[], List.Sublist.refl _, .nil⟩
  | @cons m t _ hm _ ih =>
    cases hown : m.own? with
    | none =>
      -- what another client does is no exchange
      rw [List.filterMap_cons_none hown] at hxs
      obtain ⟨ms, hms, hdeeds⟩ := ih hxs
      exact ⟨ms, hms.cons m, hdeeds⟩
    | some x =>
      rw [List.filterMap_cons_some hown] at hxs
      cases hxs with
      | cons _ hxs =>
        obtain ⟨ms, hms, hdeeds⟩ := ih hxs
        exact ⟨ms, hms.cons m, hdeeds⟩
      | cons_cons _ hxs =>
        obtain ⟨ms, hms, hdeeds⟩ := ih hxs
        exact ⟨m :: ms, hms.cons_cons m, .cons ⟨hm, Moment.own?_eq_some.mp hown⟩ hdeeds⟩

/-! ## Sharing a server -/

/-- A server, what other clients call before each of the coming requests, and what has happened so far. -/
structure Shared where
  server : Server
  others : List (List Call)
  past : List Moment

namespace Shared

/-- Another client makes a call. -/
def call (s : Shared) (c : Call) : Shared :=
  let registry := (s.server.registry.perform c).2
  { s with
    server := { s.server with registry }
    past := s.past ++ [⟨.other c, s.server.registry, registry⟩] }

/-- The other clients make the calls that are due before the next request. -/
def wait (s : Shared) : Shared := (s.others.headD []).foldl call { s with others := s.others.tail }

/-- The answer to a request, once the other clients have made their calls. -/
def answer (r : Request) (s : Shared) : Except Failure r.Reply × Shared :=
  let s := s.wait
  let (reply, server) := s.server.answer r
  (reply, { s with server, past := s.past ++ [⟨.own ⟨r, reply⟩, s.server.registry, server.registry⟩] })

/-- A server that is shared from now on. -/
def start (server : Server) (others : List (List Call)) : Shared := ⟨server, others, []⟩

/-- From one state to another some moments happen, with some exchanges in them. -/
structure GoesOn (P : Point → Failure → Prop) (s : Shared) (t : List Moment) (xs : List Exchange) (s' : Shared) :
    Prop where
  past : s'.past = s.past ++ t
  history : History P s.server.registry t s'.server.registry
  own : t.filterMap Moment.own? = xs
  faults : s'.server.FaultsAre P

namespace GoesOn

theorem refl {s : Shared} (hs : s.server.FaultsAre P) : GoesOn P s [] [] s where
  past := (List.append_nil _).symm
  history := .nil _
  own := rfl
  faults := hs

theorem trans {s s₁ s₂ : Shared} {t₁ t₂ : List Moment} {xs₁ xs₂ : List Exchange} (h₁ : GoesOn P s t₁ xs₁ s₁)
    (h₂ : GoesOn P s₁ t₂ xs₂ s₂) : GoesOn P s (t₁ ++ t₂) (xs₁ ++ xs₂) s₂ where
  past := by rw [h₂.past, h₁.past, List.append_assoc]
  history := h₁.history.append h₂.history
  own := by rw [List.filterMap_append, h₁.own, h₂.own]
  faults := h₂.faults

end GoesOn

/-- Calls of other clients are no exchanges. -/
theorem goesOn_calls (calls : List Call) {s : Shared} (hs : s.server.FaultsAre P) :
    ∃ t, GoesOn P s t [] (calls.foldl call s) := by
  induction calls generalizing s with
  | nil => exact ⟨[], .refl hs⟩
  | cons c calls ih =>
    let m : Moment := ⟨.other c, s.server.registry, (s.server.registry.perform c).2⟩
    have hm : m.Happens P := rfl
    have hcall : GoesOn P s [m] [] (s.call c) := ⟨rfl, .cons hm (.nil _), rfl, hs⟩
    obtain ⟨t, ht⟩ := ih hcall.faults
    exact ⟨_, hcall.trans ht⟩

theorem goesOn_wait {s : Shared} (hs : s.server.FaultsAre P) : ∃ t, GoesOn P s t [] s.wait := by
  obtain ⟨t, ht⟩ := goesOn_calls (s.others.headD []) (s := { s with others := s.others.tail }) hs
  exact ⟨t, ht.past, ht.history, ht.own, ht.faults⟩

/-- An answer of a server is a moment. -/
theorem happens_answer (r : Request) {s : Server} (hs : s.FaultsAre P) :
    Moment.Happens P ⟨.own ⟨r, (s.answer r).1⟩, s.registry, (s.answer r).2.registry⟩ ∧
      (s.answer r).2.FaultsAre P := by
  cases r with
  | opening e =>
    obtain ⟨hs', hr', hfailed⟩ := hs.answer_opening e
    exact ⟨⟨hr', hfailed⟩, hs'⟩
  | closing client =>
    obtain ⟨hs', hr', hfailed⟩ := hs.answer_closing client
    exact ⟨⟨hr', hfailed⟩, hs'⟩
  | call client c =>
    obtain ⟨hs', hperforms⟩ := hs.answer_call client c
    exact ⟨hperforms, hs'⟩

/-- A request is answered in a moment, after those of other clients. -/
theorem goesOn_answer (r : Request) {s : Shared} (hs : s.server.FaultsAre P) :
    ∃ t, GoesOn P s t [⟨r, (s.answer r).1⟩] (s.answer r).2 := by
  obtain ⟨t, ht⟩ := goesOn_wait hs
  obtain ⟨hmoment, hfaults⟩ := happens_answer r ht.faults
  have hanswer : GoesOn P s.wait _ [⟨r, (s.answer r).1⟩] (s.answer r).2 :=
    ⟨rfl, .cons hmoment (.nil _), rfl, hfaults⟩
  exact ⟨_, ht.trans hanswer⟩

end Shared

/-- A run of a dialogue is a history with the dialogue's exchanges in it. -/
theorem Dialogue.goesOn (d : Dialogue α) {s : Shared} (hs : s.server.FaultsAre P) :
    ∃ t, Shared.GoesOn P s t (d.exchanges Shared.answer s) (d.run Shared.answer s).state := by
  induction d generalizing s with
  | done a => exact ⟨[], .refl hs⟩
  | log line next ih => exact ih hs
  | ask r next ih =>
    obtain ⟨t, ht⟩ := Shared.goesOn_answer r hs
    obtain ⟨t', ht'⟩ := ih _ ht.faults
    exact ⟨_, ht.trans ht'⟩

/-- Where no other client does anything, the result is that on the server alone. -/
theorem Dialogue.result_alone (d : Dialogue α) (s : Server) (past : List Moment) :
    (d.run Shared.answer ⟨s, [], past⟩).result = (d.run Server.answer s).result := by
  induction d generalizing s past with
  | done a => rfl
  | log line next ih => exact ih s past
  | ask r next ih => exact ih _ _ _

end SchemaCatalog
