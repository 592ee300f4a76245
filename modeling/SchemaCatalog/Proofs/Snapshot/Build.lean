/-
  The listing of a catalog, with all that may happen while it is read.

  1. **Who is asked.**  `Shows` says of whoever answers that a reading call is told the truth about one
     registry or a loss, and that this stays so.  Healthy servers are of this sort, with no loss at all;
     so are servers with faults.

  2. **What is read.**  Reading gives the entries of the positions in their order, up to the first position
     without an entry or to a loss.  The same induction over the types of a group, and over the groups,
     serves both sorts of servers (`Visited`, `Listed`).

  3. **What is listed.**  Without losses the listing is the longest run of positions with entries, unless the
     document behind that run nests too deep: then there is no listing.  A loss can only make a listing
     shorter, and if it comes before such a document there is one.
-/
import SchemaCatalog.Proofs.Session
import SchemaCatalog.Proofs.Registry.Server
import SchemaCatalog.Proofs.Snapshot.Positions
import SchemaCatalog.Proofs.Document.Acceptance

namespace SchemaCatalog.Snapshot

/-! ## Who is asked -/

/-- Sessions show the registry `r` from every good state: a step that the registry has an answer to ends
with that answer or in a loss. -/
structure Shows {σ : Type} (answer : (q : Request) → σ → Except Failure q.Reply × σ) (r : Registry)
    (Good : σ → Prop) (Lost : Failure → Prop) : Prop where
  start : ∀ (e : Endpoint) (s : σ), Good s →
    ∃ session, Meets Good Lost (.ok session) ((Session.start e).play answer s)
  call : ∀ (session : Session) (c : Call) (x : c.Reply) (s : σ), c.isReading = true → Good s →
    (r.perform c).1 = .ok x → Meets Good Lost (.ok x) (Attempt.play answer (session.call c) s)
  close : ∀ (session : Session) (s : σ), Good s → (session.close.play answer s).1 = .ok ()

/-- Sessions show the registry that their clients show; a loss is told by them in their own way. -/
theorem shows_of_clients {σ : Type} {answer : (q : Request) → σ → Except Failure q.Reply × σ} {r : Registry}
    {Good : σ → Prop} {Lost Told : Failure → Prop} (htold : ∀ (e : Endpoint) f, Lost f → Told (e.told f))
    (hopening : ∀ e s, Good s → ∃ client, Meets Good Lost (.ok client) (answer (.opening e) s))
    (hcall : ∀ client (c : Call) (x : c.Reply) s, c.isReading = true → Good s →
      (r.perform c).1 = .ok x → Meets Good Lost (.ok x) (answer (.call client c) s))
    (hclosing : ∀ client s, Good s → (answer (.closing client) s).1 = .ok ()) :
    Shows answer r Good Told where
  start := by
    intro e s hs
    obtain ⟨client, hmeets⟩ := hopening e s hs
    refine ⟨⟨e, client⟩, ?_⟩
    obtain ⟨s', hs', hanswer | ⟨f, hanswer, hf⟩⟩ := hmeets.cases
    · rw [Session.play_start, hanswer]
      exact ⟨hs', .inl rfl⟩
    · rw [Session.play_start, hanswer]
      exact ⟨hs', .inr ⟨_, rfl, htold e f hf⟩⟩
  call := by
    intro session c x s hc hs hx
    obtain ⟨s', hs', hanswer | ⟨f, hanswer, hf⟩⟩ := (hcall session.client c x s hc hs hx).cases
    · rw [Session.play_call, hanswer]
      exact ⟨hs', .inl rfl⟩
    · rw [Session.play_call, hanswer]
      exact ⟨hs', .inr ⟨_, rfl, htold session.endpoint f hf⟩⟩
  close := by
    intro session s hs
    rw [Session.play_close]
    split
    · exact hclosing session.client s hs
    · rfl

/-- A healthy server shows its registry, and nothing is ever lost. -/
theorem shows_of_healthy (r : Registry) :
    Shows Server.answer r (fun s => s.Healthy ∧ s.registry = r) fun _ => False := by
  refine shows_of_clients (fun _ _ (hf : False) => hf) ?_ ?_ ?_
  · rintro e s ⟨hs, hr⟩
    obtain ⟨client, s', hanswer, hs', hr'⟩ := hs.answer_opening e
    rw [hanswer]
    exact ⟨client, ⟨hs', hr'.trans hr⟩, .inl rfl⟩
  · rintro client c x s hc ⟨hs, rfl⟩ hx
    obtain ⟨s', hanswer, hs', hr'⟩ := hs.answer_call client c
    rw [hanswer]
    exact ⟨⟨hs', hr'.trans (Registry.perform_reading hc s.registry)⟩, .inl hx⟩
  · rintro client s ⟨hs, -⟩
    obtain ⟨s', hanswer, -⟩ := hs.answer_closing client
    rw [hanswer]

/-- A server whose faults are losses shows its registry, and a session tells every loss as one. -/
theorem shows_of_onlyLosses (r : Registry) :
    Shows Server.answer r (Server.LosesOnly r) Failure.TellsLoss := by
  refine shows_of_clients (fun e f (hf : f.IsLoss) => hf.told e) ?_ ?_ ?_
  · rintro e s ⟨hs, rfl⟩
    exact hs.answer_opening e
  · rintro client c x s hc ⟨hs, rfl⟩ hx
    rw [← hx]
    exact hs.answer_call client hc
  · rintro client s ⟨hs, -⟩
    exact hs.answer_closing client

/-! ## What is read -/

/-- Only the depth of a document is not handled. -/
theorem isHandled_eq_false {why : Unreadable} : isHandled why = false ↔ why.kind = .tooDeep := by
  cases why <;> simp [isHandled, Unreadable.kind, Kind.isA, Kind.parent?]

theorem takeWhile_append (es : List Entry) (rest : List (Option Entry)) :
    (es.map some ++ rest).takeWhile Option.isSome = es.map some ++ rest.takeWhile Option.isSome := by
  induction es with
  | nil => rfl
  | cons e es ih => exact congrArg (some e :: ·) ih

/-- How reading ends at a document that cannot be read. -/
def toldOf (why : Unreadable) : Except Failure Unit :=
  if isHandled why then .ok () else .error (.unreadable why)

section Reading

variable [Json.Nesting]

/-- What was read of some positions: all of them, those before one without an entry, or those before a loss. -/
inductive Visited (r : Registry) (Lost : Failure → Prop) : List Position → List Entry × Except Failure Bool → Prop
  | whole (ps : List Position) (es : List Entry) (h : ps.map r.entryAt = es.map some) :
    Visited r Lost ps (es, .ok true)
  | stopped (ps : List Position) (es : List Entry) {p : Position} {why : Unreadable} (rest : List Position)
    (h : ps.map r.entryAt = es.map some) (hp : r.faultAt p = some why) :
    Visited r Lost (ps ++ p :: rest) (es, (toldOf why).map fun _ => false)
  | lost (ps : List Position) (es : List Entry) (rest : List Position) (f : Failure)
    (h : ps.map r.entryAt = es.map some) (hf : Lost f) : Visited r Lost (ps ++ rest) (es, .error f)

theorem Visited.cons {r : Registry} {Lost : Failure → Prop} {ps : List Position} {es : List Entry}
    {outcome : Except Failure Bool} (h : Visited r Lost ps (es, outcome)) {p : Position} {e : Entry}
    (hp : r.entryAt p = some e) : Visited r Lost (p :: ps) (e :: es, outcome) := by
  have hcons : ∀ {qs : List Position} {fs : List Entry}, qs.map r.entryAt = fs.map some →
      (p :: qs).map r.entryAt = (e :: fs).map some := by
    intro qs fs hqs
    rw [List.map_cons, List.map_cons, hqs, hp]
  cases h with
  | whole ps es h => exact .whole _ _ (hcons h)
  | stopped ps es rest h hp' => exact .stopped _ _ rest (hcons h) hp'
  | lost ps es rest f h hf => exact .lost _ _ rest f (hcons h) hf

/-- How reading positions ends if nothing is lost: at the first that cannot be read, if there is one. -/
def endOf (r : Registry) (ps : List Position) : Except Failure Unit :=
  match ps.findSome? r.faultAt with
  | some why => toldOf why
  | none => .ok ()

/-- What was read of all positions when reading ended: the longest run of entries, or less after a loss. -/
inductive Listed (r : Registry) (Lost : Failure → Prop) (ps : List Position) :
    List Entry × Except Failure Unit → Prop
  | ended (es : List Entry) (h : es.map some = (ps.map r.entryAt).takeWhile Option.isSome) :
    Listed r Lost ps (es, endOf r ps)
  | lost (es : List Entry) (f : Failure) (h : es.map some <+: (ps.map r.entryAt).takeWhile Option.isSome)
    (hf : Lost f) : Listed r Lost ps (es, .error f)

/-- Positions with entries do not end the reading. -/
theorem endOf_append {r : Registry} {ps : List Position} {es : List Entry} (h : ps.map r.entryAt = es.map some)
    (rest : List Position) : endOf r (ps ++ rest) = endOf r rest := by
  have hnone : ps.findSome? r.faultAt = none := by
    rw [List.findSome?_eq_none_iff]
    intro p hp
    obtain ⟨e, -, he⟩ := List.mem_map.mp (h ▸ List.mem_map_of_mem hp)
    exact Registry.faultAt_of_entryAt he.symm
  rw [endOf, List.findSome?_append, hnone, Option.none_or, endOf]

/-- Nothing ends the reading where all positions have entries. -/
theorem endOf_of_whole {r : Registry} {ps : List Position} {es : List Entry}
    (h : ps.map r.entryAt = es.map some) : endOf r ps = .ok () := by
  rw [← List.append_nil ps, endOf_append h]
  rfl

/-- Whole groups come before the rest. -/
theorem Listed.append {r : Registry} {Lost : Failure → Prop} {ps qs : List Position} {es more : List Entry}
    {outcome : Except Failure Unit} (hps : ps.map r.entryAt = es.map some)
    (h : Listed r Lost qs (more, outcome)) : Listed r Lost (ps ++ qs) (es ++ more, outcome) := by
  have htake : ((ps ++ qs).map r.entryAt).takeWhile Option.isSome =
      es.map some ++ (qs.map r.entryAt).takeWhile Option.isSome := by
    rw [List.map_append, hps, takeWhile_append]
  cases h with
  | ended _ h =>
    rw [← endOf_append hps]
    exact .ended _ (by rw [htake, List.map_append, h])
  | lost _ f h hf =>
    refine .lost _ f ?_ hf
    rw [htake, List.map_append]
    exact (List.prefix_append_right_inj _).mpr h

variable {σ : Type} {answer : (q : Request) → σ → Except Failure q.Reply × σ} {r : Registry}
  {Good : σ → Prop} {Lost : Failure → Prop}

/-- The types of a group, one after the other.  The induction is on the types; the state is whatever the
types before have left, which is good. -/
theorem Shows.readTypes (h : Shows answer r Good Lost) (session : Session) {name : String} {g : Group}
    (hg : r.group? name = some g) {types : List String}
    (htypes : ∀ t ∈ types, t ∈ g.schemas.map fun s => s.info.type) {s : σ} (hs : Good s) :
    Visited r Lost (types.map (.table name)) ((Snapshot.readTypes session name types).play answer s).1 ∧
    Good ((Snapshot.readTypes session name types).play answer s).2 := by
  induction types generalizing s with
  | nil => exact ⟨.whole [] [] rfl, hs⟩
  | cons type types ih =>
    obtain ⟨latest, hfound⟩ := Registry.exists_latest (htypes type List.mem_cons_self)
    have hperform : (r.perform (.latestVersion name type)).1 = .ok latest := by
      rw [Registry.perform_latestVersion hg hfound]
    have hlatest : r.latestOf name type = some latest := by
      rw [Registry.latestOf, hg, Option.bind_some, hfound]
    obtain ⟨s', hs', heq | ⟨f, heq, hf⟩⟩ :=
      (h.call session (.latestVersion name type) latest s rfl hs hperform).cases
    · -- an answer is the latest version, so what is read from it decides how to go on
      rw [List.map_cons]
      cases hdecode : Document.decode latest.info.data with
      | error why =>
        have hstopped : Visited r Lost (.table name type :: types.map (.table name))
            ([], (toldOf why).map fun _ => false) :=
          .stopped [] [] _ rfl (Registry.faultAt_table hlatest hdecode)
        simp only [Snapshot.readTypes, Dialogue.play_bind, Dialogue.play_say, Attempt.play_run, heq, hdecode]
        rw [toldOf] at hstopped
        split
        · rename_i hhandled
          rw [if_pos hhandled] at hstopped
          exact ⟨hstopped, hs'⟩
        · rename_i hhandled
          rw [if_neg hhandled] at hstopped
          exact ⟨hstopped, hs'⟩
      | ok table =>
        have hrest := ih (fun t ht => htypes t (List.mem_cons_of_mem type ht)) hs'
        simp only [Snapshot.readTypes, Dialogue.play_bind, Dialogue.play_say, Attempt.play_run, heq, hdecode,
          Dialogue.play_pure]
        exact ⟨hrest.1.cons (Registry.entryAt_table hlatest hdecode), hrest.2⟩
    · simp only [Snapshot.readTypes, Dialogue.play_bind, Dialogue.play_say, Attempt.play_run, heq]
      exact ⟨.lost [] [] _ f rfl hf, hs'⟩

/-- A group: its types, or the group itself if it holds no version. -/
theorem Shows.readGroup (h : Shows answer r Good Lost) (session : Session) {name : String}
    (hname : name ∈ r.groups.map Group.name) {s : σ} (hs : Good s) :
    Visited r Lost (positionsIn name (r.schemasOf name)) ((Snapshot.readGroup session name).play answer s).1 ∧
    Good ((Snapshot.readGroup session name).play answer s).2 := by
  obtain ⟨g, hg⟩ := Option.isSome_iff_exists.mp (Registry.group?_isSome.mpr hname)
  have hschemas := Registry.schemasOf_of_some hg
  have hperform : (r.perform (.getSchemas name)).1 = .ok g.schemas := by
    rw [Registry.perform_getSchemas hg]
  obtain ⟨s', hs', heq | ⟨f, heq, hf⟩⟩ := (h.call session (.getSchemas name) g.schemas s rfl hs hperform).cases
  · simp only [Snapshot.readGroup, Dialogue.play_bind, Attempt.play_run, heq, hschemas]
    cases hvs : g.schemas with
    | nil => exact ⟨.whole _ [Entry.ofNamespace name] rfl, hs'⟩
    | cons v vs =>
      have htypes : ∀ t ∈ typesOf (v :: vs), t ∈ g.schemas.map fun s => s.info.type := by
        intro t ht
        rw [hvs]
        exact mem_typesOf.mp ht
      have hread := h.readTypes session hg htypes hs'
      rw [positionsIn_cons]
      -- a group with versions has types, so it is not taken for an empty one
      split
      · rename_i hnone
        have hfirst : v.info.type ∈ typesOf (v :: vs) := mem_typesOf.mpr List.mem_cons_self
        rw [hnone] at hfirst
        cases hfirst
      · exact hread
  · simp only [Snapshot.readGroup, Dialogue.play_bind, Attempt.play_run, heq]
    exact ⟨.lost [] [] _ f rfl hf, hs'⟩

/-- What was read of a group is what was read of all, if reading ends there. -/
theorem Listed.of_stopped {ps : List Position} {es : List Entry} (h : ps.map r.entryAt = es.map some)
    {p : Position} {why : Unreadable} (hp : r.faultAt p = some why) (rest : List Position) :
    Listed r Lost (ps ++ p :: rest) (es, toldOf why) := by
  have hend : endOf r (ps ++ p :: rest) = toldOf why := by
    rw [endOf_append h, endOf, List.findSome?_cons, hp]
  rw [← hend]
  refine .ended es ?_
  rw [List.map_append, h, takeWhile_append, List.map_cons, Registry.entryAt_of_faultAt hp]
  exact (List.append_nil _).symm

/-- The groups, one after the other. -/
theorem Shows.readGroups (h : Shows answer r Good Lost) (session : Session) {names : List String}
    (hnames : ∀ n ∈ names, n ∈ r.groups.map Group.name) {s : σ} (hs : Good s) :
    Listed r Lost (names.flatMap fun n => positionsIn n (r.schemasOf n))
      ((Snapshot.readGroups session names).play answer s).1 ∧
    Good ((Snapshot.readGroups session names).play answer s).2 := by
  induction names generalizing s with
  | nil => exact ⟨.ended [] rfl, hs⟩
  | cons name names ih =>
    have hgroup := h.readGroup session (hnames name List.mem_cons_self) hs
    have hrest := fun s' hs' => ih (s := s') (fun n hn => hnames n (List.mem_cons_of_mem name hn)) hs'
    rw [List.flatMap_cons]
    simp only [Snapshot.readGroups, Dialogue.play_bind, Dialogue.play_say]
    generalize (Snapshot.readGroup session name).play answer s = out at hgroup ⊢
    obtain ⟨⟨es, outcome⟩, s'⟩ := out
    generalize positionsIn name (r.schemasOf name) = ps at hgroup ⊢
    obtain ⟨hvisited, hs'⟩ := hgroup
    cases hvisited with
    | whole _ _ hps =>
      obtain ⟨hlisted, hgood⟩ := hrest s' hs'
      simp only [Dialogue.play_bind, Dialogue.play_pure]
      exact ⟨hlisted.append hps, hgood⟩
    | stopped _ _ rest hps hp =>
      -- the groups behind are neither read nor part of the longest run
      have hlisted : Listed r Lost _ _ := .of_stopped hps hp
        (rest ++ names.flatMap fun n => positionsIn n (r.schemasOf n))
      rw [List.append_assoc, List.cons_append]
      generalize toldOf _ = told at hlisted ⊢
      cases told with
      | ok _ => exact ⟨hlisted, hs'⟩
      | error f => exact ⟨hlisted, hs'⟩
    | lost _ _ rest f hps hf =>
      refine ⟨.lost es f ?_ hf, hs'⟩
      rw [List.append_assoc, List.map_append, hps, takeWhile_append]
      exact List.prefix_append _ _

/-- All groups of the registry. -/
theorem Shows.readAll (h : Shows answer r Good Lost) (session : Session) {s : σ} (hs : Good s) :
    Listed r Lost r.positions ((Snapshot.readAll session).play answer s).1 ∧
    Good ((Snapshot.readAll session).play answer s).2 := by
  have hperform : (r.perform .listGroups).1 = .ok (r.groups.map fun g => (g.name, g.properties)) := rfl
  obtain ⟨s', hs', heq | ⟨f, heq, hf⟩⟩ := (h.call session .listGroups _ s rfl hs hperform).cases
  · have hgroups := h.readGroups session (fun _ hn => hn) hs'
    rw [List.flatMap_map] at hgroups
    simp only [Snapshot.readAll, Dialogue.play_bind, Attempt.play_run, heq]
    split
    · rename_i hempty
      rw [List.isEmpty_iff, List.map_eq_nil_iff] at hempty
      rw [Registry.positions, hempty]
      exact ⟨.ended [] rfl, hs'⟩
    · rw [List.map_map]
      exact hgroups
  · simp only [Snapshot.readAll, Dialogue.play_bind, Attempt.play_run, heq]
    exact ⟨.lost [] f List.nil_prefix hf, hs'⟩

end Reading

/-! ## What is listed -/

/-- What a listing comes to, of what was read and of how reading ended: a loss does not count. -/
def concluded (es : List Entry) : Except Failure Unit → Except Failure Snapshot
  | .ok () => .ok ⟨es⟩
  | .error f =>
    if f.kind.isA .registryUnreachable || f.kind.isA .registryNotFound then .ok ⟨es⟩ else .error f

theorem concluded_of_tellsLoss {f : Failure} (h : f.TellsLoss) (es : List Entry) :
    concluded es (.error f) = .ok ⟨es⟩ := by
  rcases h with h | h <;> simp [concluded, h]

/-- The depth of a document is not taken for a loss. -/
theorem concluded_of_tooDeep {why : Unreadable} (h : why.kind = .tooDeep) (es : List Entry) :
    concluded es (.error (.unreadable why)) = .error (.unreadable why) := by
  rw [concluded, Failure.kind, h]
  rfl

section Listing

variable [Json.Nesting] {σ : Type} {answer : (q : Request) → σ → Except Failure q.Reply × σ} {r : Registry}
  {Good : σ → Prop} {Lost : Failure → Prop}

/-- A session around the reading: opening it may be a loss, closing it changes nothing. -/
theorem Shows.inSession (h : Shows answer r Good Lost) (e : Endpoint) {s : σ} (hs : Good s) :
    Listed r Lost r.positions ((SchemaCatalog.inSession e [] Snapshot.readAll).play answer s).1 := by
  obtain ⟨session, hstart⟩ := h.start e s hs
  rw [play_inSession]
  obtain ⟨s', hs', heq | ⟨f, heq, hf⟩⟩ := hstart.cases
  · obtain ⟨hlisted, hgood⟩ := h.readAll session hs'
    have hclose := h.close session _ hgood
    rw [heq]
    simp only
    split
    · rename_i f _ hfailed
      rw [hfailed] at hclose
      cases hclose
    · exact hlisted
  · rw [heq]
    exact .lost [] f List.nil_prefix hf

/-- Without a loss there is a listing, unless that document is too deep. -/
theorem concluded_endOf (r : Registry) (es : List Entry) :
    ((∀ why, ¬r.FailsAt why) → concluded es (endOf r r.positions) = .ok ⟨es⟩) ∧
    ∀ why, r.FailsAt why → concluded es (endOf r r.positions) = .error (.unreadable why) := by
  rw [endOf, ← Registry.unread?]
  constructor
  · intro h
    cases hunread : r.unread? with
    | none => rfl
    | some why =>
      have hhandled : isHandled why = true := by
        rw [← Bool.not_eq_false, isHandled_eq_false]
        exact fun hdeep => h why ⟨hunread, hdeep⟩
      simp only [toldOf, hhandled, if_true]
      rfl
  · rintro why ⟨hunread, hdeep⟩
    rw [hunread]
    simp only [toldOf, isHandled_eq_false.mpr hdeep, Bool.false_eq_true, if_false]
    exact concluded_of_tooDeep hdeep es

variable (answer) in
theorem play_build (e : Endpoint) (s : σ) :
    (Attempt.play answer (build e) s).1 =
      concluded ((SchemaCatalog.inSession e [] Snapshot.readAll).play answer s).1.1
        ((SchemaCatalog.inSession e [] Snapshot.readAll).play answer s).1.2 := by
  simp only [build, Attempt.play_mk, Dialogue.play_bind]
  generalize (SchemaCatalog.inSession e [] Snapshot.readAll).play answer s = out
  obtain ⟨⟨es, f | u⟩, s'⟩ := out
  · simp only [concluded]
    by_cases hunreachable : f.kind.isA .registryUnreachable = true
    · rw [if_pos hunreachable, if_pos (by rw [hunreachable]; rfl)]
      rfl
    · by_cases hgone : f.kind.isA .registryNotFound = true
      · rw [if_neg hunreachable, if_pos hgone, if_pos (by rw [hgone, Bool.or_true])]
        rfl
      · rw [if_neg hunreachable, if_neg hgone, if_neg (by simp [hunreachable, hgone])]
        rfl
  · rfl

/-- A listing is made of what was read. -/
theorem Shows.build (h : Shows answer r Good Lost) (e : Endpoint) {s : σ} (hs : Good s) :
    ∃ es outcome, (Attempt.play answer (Snapshot.build e) s).1 = concluded es outcome ∧
      Listed r Lost r.positions (es, outcome) := ⟨_, _, play_build answer e s, h.inSession e hs⟩

end Listing

/-- A healthy server is listed up to the first document that cannot be read. -/
theorem build_of_healthy [Json.Nesting] (e : Endpoint) {s : Server} (hs : s.Healthy) :
    ∃ es, ((build e).run.run Server.answer s).result = concluded es (endOf s.registry s.registry.positions) ∧
      es.map some = (s.registry.positions.map s.registry.entryAt).takeWhile Option.isSome := by
  obtain ⟨es, outcome, hbuild, hlisted⟩ := (shows_of_healthy s.registry).build e ⟨hs, rfl⟩
  cases hlisted with
  | ended _ h => exact ⟨es, hbuild, h⟩
  | lost _ f _ hf => exact hf.elim

/-- A healthy server is listed to the end if every position is worth an entry. -/
theorem build_of_whole [Json.Nesting] (e : Endpoint) {s : Server} (hs : s.Healthy) {es : List Entry}
    (h : s.registry.positions.map s.registry.entryAt = es.map some) :
    ((build e).run.run Server.answer s).result = .ok ⟨es⟩ := by
  obtain ⟨entries, hbuild, hentries⟩ := build_of_healthy e hs
  have hwhole : entries.map some = es.map some := by
    rw [hentries, h, ← List.append_nil (es.map some), takeWhile_append]
    rfl
  rw [hbuild, endOf_of_whole h, List.map_injective_iff.mpr (fun _ _ heq => Option.some.inj heq) hwhole]
  rfl

/-- Nothing is read if the groups cannot be listed to their end, and this is a loss. -/
theorem read_of_waitsInListing [Json.Nesting] {f : Fault} {s : Server} (hs : s.OnlyLosses) (h : s.WaitsInListing f)
    (e : Endpoint) :
    ∃ f', f'.TellsLoss ∧ ((inSession e [] readAll).play Server.answer s).1 = ([], .error f') := by
  have hshows := shows_of_onlyLosses s.registry
  obtain ⟨session, hmeets⟩ := hshows.start e s ⟨hs, rfl⟩
  obtain ⟨s', hgood, hstart | ⟨f', hstart, hf'⟩⟩ := hmeets.cases
  · have hopened := hstart
    rw [Session.play_start] at hopened
    split at hopened
    swap
    · cases hopened
    rename_i client s₁ heq
    cases hopened
    obtain ⟨e', he'⟩ := (h.answer_opening heq).answer_call client
    obtain ⟨s'', hgood', hlist | ⟨f', hlist, hf'⟩⟩ :=
      (hshows.call ⟨e, client⟩ .listGroups _ s' rfl hgood rfl).cases
    · -- the client has no answer, so the session has none
      rw [Session.play_call] at hlist
      generalize s'.answer (.call client .listGroups) = listed at he' hlist
      obtain ⟨x, s₂⟩ := listed
      obtain rfl : x = .error e' := he'
      cases hlist
    · have hread : (readAll ⟨e, client⟩).play Server.answer s' = (([], .error f'), s'') := by
        simp only [readAll, Dialogue.play_bind, Attempt.play_run, hlist]
        rfl
      have hclose := hshows.close ⟨e, client⟩ s'' hgood'
      refine ⟨f', hf', ?_⟩
      rw [play_inSession, hstart]
      simp only [hread]
      split
      · rename_i hfailed
        rw [hfailed] at hclose
        cases hclose
      · rfl
  · exact ⟨f', hf', by rw [play_inSession, hstart]⟩

/-- **What a listing holds.**  A healthy server is listed as the longest run of positions, from the first
on, in which the latest version of every type can be read: one entry for each, in their order.  There is no
listing if the document that ends this run nests too deep. -/
theorem build_longest_readable [Json.Nesting] (e : Endpoint) {s : Server} (hs : s.Healthy) :
    ∃ entries, entries.map some = (s.registry.positions.map s.registry.entryAt).takeWhile Option.isSome ∧
      ((s.registry.groups.map Group.name).Nodup → s.registry.positions.Nodup) ∧
      ((∀ why, ¬s.registry.FailsAt why) → ((build e).run.run Server.answer s).result = .ok ⟨entries⟩) ∧
      ∀ why, s.registry.FailsAt why → ((build e).run.run Server.answer s).result = .error (.unreadable why) := by
  obtain ⟨entries, hbuild, hentries⟩ := build_of_healthy e hs
  rw [hbuild]
  exact ⟨entries, hentries, Registry.nodup_positions, concluded_endOf s.registry entries⟩

/-- A group without versions, and one with a document of so many lists inside one another. -/
def deepRegistry (n : Nat) : Registry :=
  ⟨[⟨"a", .ofOwner .null, []⟩,
    ⟨"b", .ofOwner .null, [⟨⟨"t", jsonFormat, .text (Json.brackets n), []⟩, ⟨"t", 0, 0⟩⟩]⟩], 1⟩

theorem failsAt_deepRegistry [Json.Nesting] {n : Nat} (h : Json.Nesting.deepest < n) :
    ∃ why, (deepRegistry n).FailsAt why := by
  obtain ⟨why, hwhy, hdeep⟩ := Document.decode_brackets h
  have hfault : (deepRegistry n).faultAt (.table "b" "t") = some why := Registry.faultAt_table rfl hwhy
  have hpositions : (deepRegistry n).positions = [.group "a", .table "b" "t"] := rfl
  refine ⟨why, ?_, hdeep⟩
  rw [Registry.unread?, hpositions, List.findSome?_cons, Registry.faultAt, List.findSome?_cons, hfault]

section

open Json.Usual

/-- The first group holds no version and is listed; the document in the second cannot be read, so the
third group is not reached. -/
theorem build_longest_readable_broken :
    ∃ (e : Endpoint) (s : Server), s.Healthy ∧ s.registry.groups.map Group.name = ["a", "b", "c"] ∧
      ((build e).run.run Server.answer s).result = .ok ⟨[Entry.ofNamespace "a"]⟩ := by
  let broken : StoredSchema := ⟨⟨"t", jsonFormat, .text "\x7b", []⟩, ⟨"t", 0, 0⟩⟩
  let r : Registry :=
    ⟨[⟨"a", .ofOwner .null, []⟩, ⟨"b", .ofOwner .null, [broken]⟩, ⟨"c", .ofOwner .null, []⟩], 1⟩
  let e : Endpoint := ⟨.text "localhost", 9092, .text "default"⟩
  let s : Server := { Server.start true with registry := r }
  have hs : s.Healthy := ⟨rfl, rfl⟩
  obtain ⟨entries, hentries, -, hbuild, -⟩ := build_longest_readable e hs
  have hpositions : r.positions = [.group "a", .table "b" "t", .group "c"] := by decide
  have hbroken : r.entryAt (.table "b" "t") = none := by
    have hnone : (r.entryAt (.table "b" "t")).isNone = true := by decide +kernel
    exact Option.isNone_iff_eq_none.mp hnone
  have hshallow : ∀ why, ¬r.FailsAt why := by
    rintro why ⟨hwhy, hdeep⟩
    have hkind : r.unread?.map Unreadable.kind = some .unreadable := by decide +kernel
    rw [hwhy, Option.map_some, hdeep] at hkind
    cases hkind
  rw [show s.registry = r from rfl, hpositions, List.map_cons, List.map_cons, hbroken] at hentries
  have hone : entries.map some = [Entry.ofNamespace "a"].map some := hentries
  exact ⟨e, s, hs, rfl, (hbuild hshallow).trans
    (by rw [List.map_injective_iff.mpr (fun _ _ h => Option.some.inj h) hone])⟩

/-- The document of the second group is 1200 lists inside one another.  The first group could be listed, but
there is no listing. -/
theorem not_always_listed :
    ¬∀ (e : Endpoint) (s : Server), s.Healthy → ∃ entries,
      ((build e).run.run Server.answer s).result = .ok ⟨entries⟩ ∧
        entries.map some = (s.registry.positions.map s.registry.entryAt).takeWhile Option.isSome := by
  intro hlisted
  let e : Endpoint := ⟨.text "localhost", 9092, .text "default"⟩
  let s : Server := { Server.start true with registry := deepRegistry 1200 }
  have hs : s.Healthy := ⟨rfl, rfl⟩
  obtain ⟨why, hfails⟩ := failsAt_deepRegistry (show Json.Nesting.deepest < 1200 by decide)
  obtain ⟨es, hbuild, -⟩ := build_of_healthy e hs
  obtain ⟨entries, hentries, -⟩ := hlisted e s hs
  rw [hbuild, (concluded_endOf s.registry es).2 why hfails] at hentries
  cases hentries

end

/-- **A fault can only truncate a listing.**  With whatever losses while it is read, the entries are the first
of those listed with nothing wrong, and there are none if the groups could not be listed to their end.  If there
is no listing with nothing wrong, because a document nests too deep, then a loss before that document is reached
gives one, and without such a loss there is none either. -/
theorem build_truncated [Json.Nesting] (e : Endpoint) {s : Server} (h : s.OnlyLosses) :
    ((∀ why, ¬s.registry.FailsAt why) → ∃ entries whole,
      ((build e).run.run Server.answer s).result = .ok ⟨entries⟩ ∧
      ((build e).run.run Server.answer s.mended).result = .ok ⟨whole⟩ ∧ entries <+: whole) ∧
    (∀ why, s.registry.FailsAt why →
      ((build e).run.run Server.answer s.mended).result = .error (.unreadable why) ∧
      (((build e).run.run Server.answer s).result = .error (.unreadable why) ∨
        ∃ entries, ((build e).run.run Server.answer s).result = .ok ⟨entries⟩ ∧
          entries.map some <+: (s.registry.positions.map s.registry.entryAt).takeWhile Option.isSome)) ∧
    ((∃ f, s.WaitsInListing f) → ((build e).run.run Server.answer s).result = .ok ⟨[]⟩) := by
  obtain ⟨whole, hwhole, hall⟩ := build_of_healthy e s.healthy_mended
  rw [s.mended_registry] at hwhole hall
  obtain ⟨entries, outcome, hbuild, hlisted⟩ := (shows_of_onlyLosses s.registry).build e ⟨h, rfl⟩
  refine ⟨fun hshallow => ?_, fun why hwhy => ⟨hwhole.trans ((concluded_endOf _ whole).2 why hwhy), ?_⟩, ?_⟩
  · refine ⟨entries, whole, ?_, hwhole.trans ((concluded_endOf _ whole).1 hshallow), ?_⟩
    · refine hbuild.trans ?_
      cases hlisted with
      | ended _ _ => exact (concluded_endOf _ entries).1 hshallow
      | lost _ f _ hf => exact concluded_of_tellsLoss hf entries
    -- both were read along the positions of one registry, and nothing stopped the second before its end
    · have hprefix : entries.map some <+: whole.map some := by
        rw [hall]
        cases hlisted with
        | ended _ h => exact h ▸ List.prefix_rfl
        | lost _ f h _ => exact h
      exact (List.prefix_map_iff_of_injective (fun _ _ h => Option.some.inj h)).mp hprefix
  · cases hlisted with
    | ended _ _ => exact .inl (hbuild.trans ((concluded_endOf _ entries).2 why hwhy))
    | lost _ f h hf => exact .inr ⟨entries, hbuild.trans (concluded_of_tellsLoss hf entries), h⟩
  · rintro ⟨f, hf⟩
    obtain ⟨f', hf', hread⟩ := read_of_waitsInListing h hf e
    refine (play_build Server.answer e s).trans ?_
    rw [hread]
    exact concluded_of_tellsLoss hf' []

section

open Json.Usual

/-- A listing that fails after its first group gives nothing, though there are two groups. -/
theorem build_truncated_listing :
    ∃ (e : Endpoint) (s : Server), s.OnlyLosses ∧ s.registry.groups.length = 2 ∧
      ((build e).run.run Server.answer s).result = .ok ⟨[]⟩ := by
  let r : Registry := ⟨[⟨"a", .ofOwner .null, []⟩, ⟨"b", .ofOwner .null, []⟩], 0⟩
  let f : Fault := ⟨.eachGroup, none, .raised .connectionReset "reset", 1, 1⟩
  let e : Endpoint := ⟨.text "localhost", 9092, .text "default"⟩
  let s : Server := { Server.start true with registry := r, faults := [f] }
  have hs : s.OnlyLosses := by
    intro g hg
    obtain rfl : g = f := List.mem_singleton.mp hg
    exact ⟨by decide, by decide⟩
  have hwaits : s.WaitsInListing f := ⟨List.mem_singleton.mpr rfl, rfl, rfl, by decide, by decide⟩
  exact ⟨e, s, hs, rfl, (build_truncated e hs).2.2 ⟨f, hwaits⟩⟩

/-- No fault is needed for a document that nests too deep to end a listing with a failure. -/
theorem not_always_truncated :
    ¬∀ (e : Endpoint) (s : Server), s.OnlyLosses → ∃ entries whole,
      ((build e).run.run Server.answer s).result = .ok ⟨entries⟩ ∧
      ((build e).run.run Server.answer s.mended).result = .ok ⟨whole⟩ ∧ entries <+: whole := by
  intro htruncated
  let e : Endpoint := ⟨.text "localhost", 9092, .text "default"⟩
  let s : Server := { Server.start true with registry := deepRegistry 1200 }
  obtain ⟨why, hfails⟩ := failsAt_deepRegistry (show Json.Nesting.deepest < 1200 by decide)
  obtain ⟨es, hbuild, -⟩ := build_of_healthy e s.healthy_mended
  obtain ⟨_, whole, -, hwhole, -⟩ := htruncated e s fun f hf => (nomatch hf)
  rw [hbuild, (concluded_endOf s.mended.registry es).2 why hfails] at hwhole
  cases hwhole

end

end SchemaCatalog.Snapshot
