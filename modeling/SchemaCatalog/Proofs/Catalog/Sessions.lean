/-
  Operations close the sessions that they open.

  A session's body calls no client but that of its session, so every operation keeps sessions, whatever it is
  answered (`Operation.keeps`).  A server numbers the clients that it opens (`Server.Answered`), which tells them
  apart over a whole run of operations.  With both, no client is leaked by such a run and none is used again
  (`sessions_end_with_operations`).
-/
import SchemaCatalog.Proofs.Sessions
import SchemaCatalog.Proofs.Catalog.Operations

namespace SchemaCatalog

variable {α : Type} {t₁ t₂ : List Exchange}

open Exchange (opened closed)

/-! ## Operations keep sessions -/

namespace Namespaces

/-- Adding a group is one call. -/
theorem create_keeps (e : Endpoint) (name : String) (owner : Value) :
    Attempt.KeepsSessions (create e name owner) :=
  .attemptInSession fun session => .bind (.say _ _ _) fun _ => session.call_asks _

/-- So is removing one. -/
theorem drop_keeps (e : Endpoint) (name : String) : Attempt.KeepsSessions (Namespaces.drop e name) :=
  .attemptInSession fun session => .bind (.say _ _ _) fun _ => .handle (session.call_asks _) fun _ => .say _ _ _

theorem groupNames_keeps (e : Endpoint) : Attempt.KeepsSessions (groupNames e) :=
  .attemptInSession fun session => .bind (session.call_asks .listGroups) fun _ => .pure _

/-- Where no group can be listed, nothing more is asked. -/
theorem names_keeps (e : Endpoint) : Attempt.KeepsSessions (names e) :=
  .handle (groupNames_keeps e) fun _ => .bind (.say _ _ _) fun _ => .pure _

theorem has_keeps (e : Endpoint) (name : String) : Attempt.KeepsSessions (Namespaces.has e name) := by
  refine .handle (.bind (groupNames_keeps e) fun groups => ?_) fun _ => .bind (.say _ _ _) fun _ => .pure _
  split
  · exact .bind (.say _ _ _) fun _ => .pure _
  · exact .pure _

end Namespaces

namespace Tables

/-- The document is written before the session that stores it is opened. -/
theorem create_keeps [Json.Nesting] (e : Endpoint) (ns name : String) (columns : List Column)
    (properties : Members) :
    Attempt.KeepsSessions (Tables.create e ns name columns properties) := by
  refine .bind (.lift _) fun document => .attemptInSession fun session => ?_
  exact .bind (.say _ _ _) fun _ => .bind (.say _ _ _) fun _ => session.call_asks _

/-- Versions are deleted by calls of the session's client. -/
theorem deleteEach_asks (session : Session) (group : String) (n : Nat) (vs : List StoredSchema) :
    (deleteEach session group n vs).AsksOnly (Request.IsCallOf session.client) := by
  induction vs generalizing n with
  | nil => exact .done _
  | cons v vs ih =>
    refine .bind (.say _ _ _) fun _ => .bind (session.call_asks _) fun x => ?_
    cases x with
    | error f => exact .done _
    | ok _ => exact ih (n + 1)

/-- The versions are listed by the client that deletes them. -/
theorem dropIn_asks (session : Session) (ns name : String) :
    (dropIn session ns name).AsksOnly (Request.IsCallOf session.client) := by
  refine .bind (session.call_asks _) fun x => ?_
  cases x with
  | error f => exact .done _
  | ok schemas => exact deleteEach_asks session ns 0 _

/-- A failure in the session is taken care of once that is closed. -/
theorem drop_keeps (e : Endpoint) (ns name : String) : Attempt.KeepsSessions (Tables.drop e ns name) := by
  refine Dialogue.KeepsSessions.bind (.say _ _ _) fun _ =>
    .bind (.inSession fun session => dropIn_asks session ns name) fun out => ?_
  obtain ⟨deleted, outcome⟩ := out
  cases outcome with
  | ok _ => exact .done _
  | error f =>
    simp only
    split
    · exact .bind (.say _ _ _) fun _ => .done _
    · split
      · exact .bind (.say _ _ _) fun _ => .done _
      · exact .done _

theorem has_keeps (e : Endpoint) (ns name : String) : Attempt.KeepsSessions (Tables.has e ns name) :=
  .handle (.handle (.attemptInSession fun _ => hasIn_asks (fun _ _ => rfl) ns name)
    fun _ => .bind (.say _ _ _) fun _ => .pure _) fun _ => .bind (.say _ _ _) fun _ => .pure _

end Tables

/-- All of the catalog is read in one session. -/
theorem Snapshot.build_keeps [Json.Nesting] (e : Endpoint) : Attempt.KeepsSessions (Snapshot.build e) := by
  refine Dialogue.KeepsSessions.bind (.inSession fun _ => readAll_asks fun _ _ => rfl) fun out => ?_
  obtain ⟨entries, outcome⟩ := out
  cases outcome with
  | ok _ => exact .done _
  | error f =>
    simp only
    split
    · exact .bind (.say _ _ _) fun _ => .done _
    · split
      · exact .bind (.say _ _ _) fun _ => .done _
      · exact .done _

namespace Catalog

variable (c : Catalog)

/-- A namespace that is required is looked for in a session of its own. -/
theorem requireNamespace_keeps (ns : Identifier) : Attempt.KeepsSessions (c.requireNamespace ns) := by
  refine .bind (Namespaces.has_keeps c.endpoint ns.toText) fun found => ?_
  split
  · exact .pure _
  · exact .throw _

theorem listNamespaces_keeps (ns : Identifier) : Attempt.KeepsSessions (c.listNamespaces ns) := by
  have hnames := Namespaces.names_keeps c.endpoint
  unfold listNamespaces
  simp only
  split
  · exact .bind (c.requireNamespace_keeps ns) fun _ => .bind hnames fun _ => .pure _
  · exact .bind hnames fun _ => .pure _

/-- Two sessions, one after the other: the namespace is looked for, then the table is stored. -/
theorem createTable_keeps [Json.Nesting] (i : Identifier) (columns : TableColumns) (location : Value)
    (properties : Members) :
    Attempt.KeepsSessions (c.createTable i columns location properties) :=
  .bind (c.requireNamespace_keeps _) fun _ => .bind (.lift _) fun _ => .bind (.lift _) fun _ =>
    Tables.create_keeps _ _ _ _ _

theorem dropTable_keeps (i : Identifier) : Attempt.KeepsSessions (c.dropTable i) :=
  .bind (.lift _) fun _ => .bind (Tables.drop_keeps _ _ _) fun _ => .pure _

/-- Two sessions again: the namespace is looked for, then the catalog is read. -/
theorem listTables_keeps [Json.Nesting] (ns : Identifier) : Attempt.KeepsSessions (c.listTables ns) :=
  .bind (c.requireNamespace_keeps ns) fun _ => .bind (Snapshot.build_keeps _) fun _ =>
    .bind (.lift _) fun _ => .pure _

/-- Looking up a table in a listing asks nothing. -/
theorem tableSchema_keeps [Json.Nesting] (i : Identifier) : Attempt.KeepsSessions (c.tableSchema i) := by
  refine .bind (.lift _) fun name => .bind (Snapshot.build_keeps _) fun _ => .bind (.lift _) fun found => ?_
  cases found with
  | none => exact .throw _
  | some e => exact .lift _

end Catalog

/-- Every operation keeps sessions, whatever it is answered. -/
theorem Operation.keeps [Json.Nesting] (c : Catalog) (o : Operation) : Attempt.KeepsSessions (o.attempt c) := by
  cases o with
  | change a =>
    cases a with
    | createNamespace ns properties => exact Namespaces.create_keeps _ _ _
    | dropNamespace ns => exact Namespaces.drop_keeps _ _
    | createTable i columns location properties =>
      exact .bind (c.createTable_keeps i columns location properties) fun _ => .pure _
    | dropTable i => exact c.dropTable_keeps i
  | hasNamespace ns => exact .bind (Namespaces.has_keeps _ _) fun _ => .pure _
  | listNamespaces ns => exact .bind (c.listNamespaces_keeps ns) fun _ => .pure _
  | hasTable i => exact .bind (.bind (.lift _) fun _ => Tables.has_keeps _ _ _) fun _ => .pure _
  | listTables ns => exact .bind (c.listTables_keeps ns) fun _ => .pure _
  | tableSchema i => exact .bind (c.tableSchema_keeps i) fun _ => .pure _
  | snapshot => exact .bind (Snapshot.build_keeps _) fun _ => .pure _

/-! ## On a server -/

/-- A server has answered: it numbers the clients that it opens, from where it was on, and records every
request. -/
structure Server.Answered (s : Server) (t : List Exchange) (s' : Server) : Prop where
  closable : s'.closable = s.closable
  count : s'.opened = s.opened + (Exchange.opened t).length
  clients : Exchange.opened t = (List.range' s.opened (Exchange.opened t).length).map fun n => ⟨n, s.closable⟩
  requests : s'.requests = (t.map Exchange.request).reverse ++ s.requests

namespace Server

theorem answered_nil (s : Server) : s.Answered [] s := ⟨rfl, rfl, rfl, rfl⟩

/-- What is answered later is counted on. -/
theorem Answered.append {s s₁ s₂ : Server} (h₁ : s.Answered t₁ s₁) (h₂ : s₁.Answered t₂ s₂) :
    s.Answered (t₁ ++ t₂) s₂ where
  closable := h₂.closable.trans h₁.closable
  count := by rw [h₂.count, h₁.count, Exchange.opened_append, List.length_append, Nat.add_assoc]
  clients := by
    rw [Exchange.opened_append, List.length_append, ← List.range'_append_1, List.map_append, ← h₁.clients,
      ← h₁.count, ← h₁.closable, ← h₂.clients]
  requests := by
    rw [h₂.requests, h₁.requests, List.map_append, List.reverse_append, List.append_assoc]

/-- One answer: a client that is opened has the next number. -/
theorem answered_answer (r : Request) (s : Server) : s.Answered [⟨r, (s.answer r).1⟩] (s.answer r).2 := by
  cases r with
  | opening e =>
    rw [answer_opening]
    rcases h : (s.asked (.opening e)).pass .opening none with ⟨f | f, s'⟩
    · obtain rfl : _ = s' := congrArg Prod.snd h
      exact ⟨rfl, rfl, rfl, rfl⟩
    · obtain rfl : _ = s' := congrArg Prod.snd h
      exact ⟨rfl, rfl, rfl, rfl⟩
  | closing client =>
    rw [answer_closing]
    rcases h : (s.asked (.closing client)).pass .closing none with ⟨f | f, s'⟩
    · obtain rfl : _ = s' := congrArg Prod.snd h
      exact ⟨rfl, rfl, rfl, rfl⟩
    · obtain rfl : _ = s' := congrArg Prod.snd h
      exact ⟨rfl, rfl, rfl, rfl⟩
  | call client c =>
    rw [answer_call]
    rcases h : (s.asked (.call client c)).pass c.point c.group? with ⟨f | f, s'⟩
    · obtain rfl : _ = s' := congrArg Prod.snd h
      obtain ⟨registry, faults, hreply⟩ := exists_reply c ((s.asked (.call client c)).pass c.point c.group?).2
      simp only [hreply]
      exact ⟨rfl, rfl, rfl, rfl⟩
    · obtain rfl : _ = s' := congrArg Prod.snd h
      exact ⟨rfl, rfl, rfl, rfl⟩

end Server

/-- A run of a dialogue on a server. -/
theorem Dialogue.answered_exchanges (d : Dialogue α) (s : Server) :
    s.Answered (d.exchanges Server.answer s) (d.run Server.answer s).state := by
  induction d generalizing s with
  | done a => exact s.answered_nil
  | log line next ih => exact ih s
  | ask r next ih => exact (s.answered_answer r).append (ih _ _)

/-! ## Runs of operations -/

section

variable [Json.Nesting]

/-- What is exchanged in each of some operations, one after the other. -/
def Catalog.exchanges (c : Catalog) : Server → List Operation → List (List Exchange)
  | _, [] => []
  | s, o :: os => (o.attempt c).run.exchanges Server.answer s :: c.exchanges (o.after c s) os

/-- A run of operations on a server. -/
theorem Catalog.answered_exchanges (c : Catalog) (s : Server) (os : List Operation) :
    s.Answered (c.exchanges s os).flatten (os.foldl (Operation.after c) s) := by
  induction os generalizing s with
  | nil => exact s.answered_nil
  | cons o os ih => exact ((o.attempt c).run.answered_exchanges s).append (ih _)

/-- Every operation of a run keeps sessions. -/
theorem Catalog.sessions_exchanges (c : Catalog) (s : Server) (os : List Operation) :
    ∀ t ∈ c.exchanges s os, Sessions t := by
  induction os generalizing s with
  | nil => exact fun t ht => by cases ht
  | cons o os ih =>
    refine List.forall_mem_cons.mpr ⟨?_, ih _⟩
    exact o.keeps c _ _ (Dialogue.transcript_exchanges Server.answer (o.attempt c).run s)

/-- **No session is leaked, and none is used again.**  Whatever fails in a run of operations, each closes the
clients that it has opened and that can be closed, each of them once, before it ends.  No client is called or
closed before it is opened or once it is closed, and no two that are opened are the same.  The exchanges are all
that the server has recorded; so as many clients have been closed as were opened, if they can be closed. -/
theorem Catalog.sessions_end_with_operations (c : Catalog) (s : Server) (os : List Operation) :
    let ts := c.exchanges s os
    let s' := os.foldl (Operation.after c) s
    (∀ t ∈ ts, closed t = (opened t).filter Client.closable) ∧
    ((opened ts.flatten).map Client.number).Nodup ∧
    (∀ before x after, ts.flatten = before ++ x :: after → ∀ client, x.request.client? = some client →
      client ∈ opened before ∧ client ∉ closed before) ∧
    s'.requests = (ts.flatten.map Exchange.request).reverse ++ s.requests ∧
    s'.opened = s.opened + (opened ts.flatten).length ∧
    (s.closable = true → (closed ts.flatten).length = (opened ts.flatten).length) := by
  intro ts s'
  have hsessions : Sessions ts.flatten := .flatten (c.sessions_exchanges s os)
  have hanswered : s.Answered ts.flatten s' := c.answered_exchanges s os
  have hnumbers : ((opened ts.flatten).map Client.number).Nodup := by
    rw [hanswered.clients, List.map_map]
    exact (List.map_id _).symm ▸ List.nodup_range'
  refine ⟨fun t ht => (c.sessions_exchanges s os t ht).closed_eq, hnumbers, ?_, hanswered.requests,
    hanswered.count, ?_⟩
  · exact (hsessions.usedIn (List.nil_subset _) (hnumbers.of_map _) : UsedIn [] ts.flatten)
  · intro hclosable
    -- all clients of a server are alike
    rw [hsessions.closed_eq, List.filter_eq_self.mpr]
    intro client hclient
    rw [hanswered.clients] at hclient
    obtain ⟨n, -, rfl⟩ := List.mem_map.mp hclient
    exact hclosable

end

end SchemaCatalog
