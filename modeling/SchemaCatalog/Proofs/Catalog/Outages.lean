/-
  What an operation raises while the client raises failures of the system.

  A session turns each failure of the system into the one that tells of a registry out of reach, at its opening
  and at every call, and the operations swallow that one or pass it on.  But a failure of its closing is passed on
  as it is.  So a failure of the system leaves the catalog only if a client raised it when it was closed.

  `Outage C` is what may strike: failures of the system anywhere, those at a closing among `C`.  A call then fails
  only by telling of a loss (`call_failsOnly`), since what the registry itself refuses is a group or a schema that
  is not there.  The operations that answer whatever is lost fail only as `C` says, reading the catalog also by a
  stored document that nests too deep (`Registry.SpoiltBy`); the others fail by a failure of the system only as
  `C` says.
-/
import SchemaCatalog.Proofs.Inner
import SchemaCatalog.Proofs.Catalog.Operations
import SchemaCatalog.Proofs.Snapshot.Positions

namespace SchemaCatalog

variable {α : Type} {C : Failure → Prop}

/-! ## What may strike -/

/-- Failures of the system may strike anywhere; those at a closing are among `C`. -/
def Outage (C : Failure → Prop) (point : Point) (f : Failure) : Prop := f.IsSystem ∧ (point = .closing → C f)

/-- A failure that tells of a loss, or one of `C`. -/
def LossOr (C : Failure → Prop) (f : Failure) : Prop := f.TellsLoss ∨ C f

/-- A failure that is one of `C` if it is one of the system. -/
def Passes (C : Failure → Prop) (f : Failure) : Prop := f.IsSystem → C f

/-- A loss is told by a failure of the catalog. -/
theorem LossOr.passes {f : Failure} (h : LossOr C f) : Passes C f :=
  fun hsystem => h.resolve_left fun htells => htells.not_isSystem hsystem

/-- What is known without the client passes. -/
theorem IsInner.passes {x : Except Failure α} (hx : IsInner x) (f : Failure) (hf : x = .error f) : Passes C f :=
  fun hsystem => absurd hsystem (hx f hf)

/-- What strikes a call is a failure of the system, and so is a refused connection. -/
theorem isSystem_of_raises {c : Call} {f : Failure} (h : Server.Raises (Outage C) c f) : f.IsSystem := by
  obtain rfl | ⟨point, -, hf, -⟩ := h
  · exact (rfl : Kind.isA .connectionRefused .system = true)
  · exact hf

/-! ## Sessions -/

/-- A failure of the system is told as a registry out of reach. -/
theorem Endpoint.told_of_isSystem (e : Endpoint) {f : Failure} (h : f.IsSystem) :
    (e.told f).kind.isA .registryUnreachable = true := by
  have hsystem : f.kind.isA .system = true := h
  rw [told, if_pos hsystem]
  rfl

/-- A call fails by telling of a loss; where no group is needed, only of a registry out of reach. -/
theorem call_failsOnly (session : Session) (c : Call) :
    Attempt.FailsOnly (Outage C)
      (fun f => f.TellsLoss ∧ (c.needed? = none → f.kind.isA .registryUnreachable = true)) (session.call c) := by
  refine fun r => (Attempt.Ends.call session c).mono ?_
  rintro x r' (⟨y, hperform, rfl⟩ | ⟨⟨f, hf, rfl⟩, -⟩) f' hf'
  · cases y with
    | ok a => cases hf'
    | error f =>
      cases hf'
      obtain ⟨group, hneeded, hwhy⟩ := Registry.perform_error hperform
      have hnot : f.kind = .registryNotFound := by
        obtain rfl | ⟨type, rfl⟩ := hwhy <;> rfl
      have hlost : f.IsLoss := .inr (.inr (by rw [hnot]; rfl))
      refine ⟨hlost.told session.endpoint, fun hnone => ?_⟩
      rw [hneeded] at hnone
      cases hnone
  · cases hf'
    have htold := session.endpoint.told_of_isSystem (isSystem_of_raises hf)
    exact ⟨.inl htold, fun _ => htold⟩

theorem call_tells (session : Session) (c : Call) :
    Attempt.FailsOnly (Outage C) Failure.TellsLoss (session.call c) :=
  (call_failsOnly session c).mono fun _ hf => hf.1

/-- A session fails as its body does, by telling that it could not be opened, or as its closing does. -/
theorem attemptInSession_failsOnly {Q : Failure → Prop} {e : Endpoint} {body : Session → Attempt α}
    (hunreachable : ∀ f, f.kind.isA .registryUnreachable = true → Q f) (hclosed : ∀ f, C f → Q f)
    (hbody : ∀ session, Attempt.FailsOnly (Outage C) Q (body session)) :
    Attempt.FailsOnly (Outage C) Q (attemptInSession e body) := by
  refine fun r => attemptInSession_ends ?_ ?_ fun client => hbody ⟨e, client⟩ r
  · rintro f ⟨hf, -⟩ _ ⟨⟩
    exact hunreachable _ (e.told_of_isSystem hf)
  · rintro f ⟨-, hf⟩ - - - _ ⟨⟩
    exact hclosed f (hf rfl)

/-- A session whose body tells of losses. -/
theorem attemptInSession_lossOr {e : Endpoint} {body : Session → Attempt α}
    (hbody : ∀ session, Attempt.FailsOnly (Outage C) (LossOr C) (body session)) :
    Attempt.FailsOnly (Outage C) (LossOr C) (attemptInSession e body) :=
  attemptInSession_failsOnly (fun _ hf => .inl (.inl hf)) (fun _ hf => .inr hf) hbody

theorem call_lossOr (session : Session) (c : Call) :
    Attempt.FailsOnly (Outage C) (LossOr C) (session.call c) := (call_tells session c).mono fun _ hf => .inl hf

/-- What was kept fails only as `Q` says. -/
def KeptFailsOnly {κ : Type} (Q : Failure → Prop) (out : κ × Except Failure α) (_ : Registry) : Prop :=
  ∀ f, out.2 = .error f → Q f

/-- So does a session that keeps what was done before it failed. -/
theorem inSession_failsOnly {κ : Type} {Q : Failure → Prop} {e : Endpoint} {start : κ} {r : Registry}
    {body : Session → Dialogue (κ × Except Failure α)}
    (hunreachable : ∀ f, f.kind.isA .registryUnreachable = true → Q f) (hclosed : ∀ f, C f → Q f)
    (hbody : ∀ session, (body session).Ends (Outage C) r (KeptFailsOnly Q)) :
    (inSession e start body).Ends (Outage C) r (KeptFailsOnly Q) := by
  refine inSession_ends ?_ ?_ fun client => hbody ⟨e, client⟩
  · rintro f ⟨hf, -⟩ _ ⟨⟩
    exact hunreachable _ (e.told_of_isSystem hf)
  · rintro f ⟨-, hf⟩ - - - _ ⟨⟩
    exact hclosed f (hf rfl)

/-! ## Namespaces -/

namespace Namespaces

theorem create_failsOnly (e : Endpoint) (name : String) (owner : Value) :
    Attempt.FailsOnly (Outage C) (LossOr C) (Namespaces.create e name owner) :=
  attemptInSession_lossOr fun session => .say_bind (call_lossOr session _)

theorem drop_failsOnly (e : Endpoint) (name : String) :
    Attempt.FailsOnly (Outage C) (LossOr C) (Namespaces.drop e name) :=
  attemptInSession_lossOr fun session =>
    .say_bind (.handle (call_lossOr session _) (fun _ => .say _ _ _) fun _ hf _ => hf)

/-- Listing the groups needs none, so it can only find the registry out of reach. -/
theorem groupNames_failsOnly (e : Endpoint) :
    Attempt.FailsOnly (Outage C) (fun f => f.kind.isA .registryUnreachable = true ∨ C f) (groupNames e) := by
  refine attemptInSession_failsOnly (fun _ hf => .inl hf) (fun _ hf => .inr hf) fun session => ?_
  exact .bind ((call_failsOnly session .listGroups).mono fun _ hf => .inl (hf.2 rfl)) fun _ => .pure _

/-- Names that cannot be listed are none. -/
theorem names_failsOnly (e : Endpoint) : Attempt.FailsOnly (Outage C) C (names e) :=
  .handle (groupNames_failsOnly e) (fun _ => .say_bind (.pure _)) fun _ hf hkind => hf.resolve_left hkind

/-- A namespace that cannot be looked for is not there. -/
theorem has_failsOnly (e : Endpoint) (name : String) :
    Attempt.FailsOnly (Outage C) C (Namespaces.has e name) := by
  refine .handle (.bind (groupNames_failsOnly e) fun groups => ?_) (fun _ => .say_bind (.pure _))
    fun _ hf hkind => hf.resolve_left hkind
  split
  · exact .say_bind (.pure _)
  · exact .pure _

end Namespaces

/-! ## Tables -/

namespace Tables

/-- A table is written before the session, and stored in it. -/
theorem create_failsOnly [Json.Nesting] (e : Endpoint) (ns name : String) (columns : List Column)
    (properties : Members) :
    Attempt.FailsOnly (Outage C) (Passes C) (Tables.create e ns name columns properties) := by
  refine .lift_bind (Document.isInner_encodeTable _).passes fun document _ => ?_
  have hsession : Attempt.FailsOnly (Outage C) (LossOr C) (attemptInSession e fun s => do
      .say .info .operations
        ("Create table schema " ++ name ++ " in group " ++ ns ++ " at " ++ Namespaces.whereabouts e)
      .say .debug .operations ("Add schema: " ++ document)
      s.call (.addSchema ns (schemaOf name document))) :=
    attemptInSession_lossOr fun session => .say_bind (.say_bind (call_lossOr session _))
  exact hsession.mono fun f hf => hf.passes

/-- Each deletion tells of a loss, or goes on to the next. -/
theorem deleteEach_tells (session : Session) (group : String) (n : Nat) (vs : List StoredSchema) (r : Registry) :
    (deleteEach session group n vs).Ends (Outage C) r (KeptFailsOnly Failure.TellsLoss) := by
  induction vs generalizing n r with
  | nil => exact .done fun f hf => (by cases hf)
  | cons v vs ih =>
    refine Dialogue.Ends.say_bind (.bind (call_tells session (.deleteVersion group v.version) r) fun x r' hx => ?_)
    cases x with
    | error f => exact .done fun f' hf' => (by cases hf'; exact hx f rfl)
    | ok _ => exact ih (n + 1) r'

theorem dropIn_tells (session : Session) (ns name : String) (r : Registry) :
    (dropIn session ns name).Ends (Outage C) r (KeptFailsOnly Failure.TellsLoss) := by
  refine .bind (call_tells session (.getSchemas ns) r) fun x r' hx => ?_
  cases x with
  | error f => exact .done fun f' hf' => (by cases hf'; exact hx f rfl)
  | ok schemas => exact deleteEach_tells session ns 0 _ r'

/-- Dropping a table swallows what tells of a loss. -/
theorem drop_failsOnly (e : Endpoint) (ns name : String) :
    Attempt.FailsOnly (Outage C) C (Tables.drop e ns name) := by
  intro r
  have hsession : (inSession e 0 fun session => dropIn session ns name).Ends (Outage C) r
      (KeptFailsOnly (LossOr C)) :=
    inSession_failsOnly (fun _ hf => .inl (.inl hf)) (fun _ hf => .inr hf) fun session =>
      (dropIn_tells session ns name r).mono fun _ _ hout f hf => .inl (hout f hf)
  refine Dialogue.Ends.say_bind (.bind hsession ?_)
  rintro ⟨k, outcome⟩ r' hout
  cases outcome with
  | ok u => exact .done fun f hf => (by cases hf)
  | error f =>
    simp only
    split
    · exact Dialogue.Ends.say_bind (.done fun f hf => (by cases hf))
    · rename_i hthere
      split
      · exact Dialogue.Ends.say_bind (.done fun f hf => (by cases hf))
      · rename_i hreached
        refine .done fun f' hf' => ?_
        cases hf'
        exact (hout f rfl).resolve_left fun htells => htells.elim hreached hthere

/-- Looking for a table swallows it, too: one handler for each of the two failures that tell of it. -/
theorem has_failsOnly (e : Endpoint) (ns name : String) :
    Attempt.FailsOnly (Outage C) C (Tables.has e ns name) := by
  have hsession : Attempt.FailsOnly (Outage C) (LossOr C)
      (attemptInSession e fun session => hasIn session ns name) := by
    refine attemptInSession_lossOr fun session => .bind (call_lossOr session .listGroups) fun groups => ?_
    split
    · exact .say_bind (.pure _)
    · split
      · exact .pure _
      · refine .bind (call_lossOr session _) fun schemas => ?_
        split
        · exact .say_bind (.pure _)
        · exact .pure _
  refine .handle (R := fun f => f.kind.isA .registryNotFound = true ∨ C f)
    (.handle hsession (fun _ => .say_bind (.pure _)) fun f hf hkind => ?_) (fun _ => .say_bind (.pure _))
    fun f hf hkind => hf.resolve_left hkind
  exact hf.imp_left fun htells => htells.resolve_left hkind

end Tables

/-! ## The whole catalog -/

/-- A reading call is answered as the registry has it, or it tells of a loss; the registry stays as it is. -/
theorem call_reads (session : Session) {c : Call} (hc : c.isReading = true) (r : Registry) :
    (session.call c).Ends (Outage C) r fun x r' =>
      r' = r ∧ (∀ f, x = .error f → f.TellsLoss) ∧ ∀ y, x = .ok y → (r.perform c).1 = .ok y := by
  have hends := (Attempt.Ends.call session c).and (call_tells (C := C) session c r)
  refine hends.mono ?_
  rintro x r' ⟨hx, htells⟩
  rcases hx with ⟨y, hperform, rfl⟩ | ⟨⟨f, -, rfl⟩, rfl⟩
  · have hkept := Registry.perform_reading hc r
    rw [hperform] at hkept
    refine ⟨hkept, htells, fun z hz => ?_⟩
    rw [hperform]
    cases y with
    | error f => cases hz
    | ok a => exact hz
  · exact ⟨rfl, htells, fun y hy => (by cases hy)⟩

section

variable [Json.Nesting]

/-- The failure tells of the latest version of some type of the registry that it nests too deep to be read. -/
def Registry.SpoiltBy (r : Registry) (f : Failure) : Prop :=
  ∃ p why, r.faultAt p = some why ∧ why.kind = .tooDeep ∧ f = .unreadable why

/-- A document that nests too deep is no failure of the system. -/
theorem Registry.SpoiltBy.not_isSystem {r : Registry} {f : Failure} (h : r.SpoiltBy f) : ¬f.IsSystem := by
  obtain ⟨p, why, -, hdeep, rfl⟩ := h
  rw [Failure.IsSystem, Failure.kind, hdeep]
  exact Bool.false_ne_true

namespace Snapshot

/-- Reading has left the registry as it was, and it failed by a loss or by a document of the registry. -/
def ReadOnly (r : Registry) (out : List Entry × Except Failure α) (r' : Registry) : Prop :=
  r' = r ∧ ∀ f, out.2 = .error f → LossOr r.SpoiltBy f

/-- The types of a group.  A version that is answered is the latest of its type, so a document that cannot be
read is one of the registry. -/
theorem readTypes_reads (session : Session) (group : String) (types : List String) (r : Registry) :
    (readTypes session group types).Ends (Outage C) r (ReadOnly r) := by
  induction types with
  | nil => exact .done ⟨rfl, fun f hf => (by cases hf)⟩
  | cons type types ih =>
    refine Dialogue.Ends.say_bind (.bind (call_reads session (c := .latestVersion group type) rfl r) ?_)
    rintro x r' ⟨rfl, htells, hanswered⟩
    cases x with
    | error f => exact .done ⟨rfl, fun f' hf' => (by cases hf'; exact .inl (htells f rfl))⟩
    | ok latest =>
      have hlatest := Registry.latestOf_of_perform (hanswered latest rfl)
      simp only
      cases hdecode : Document.decode (StoredSchema.info latest).data with
      | error why =>
        simp only
        split
        · exact Dialogue.Ends.say_bind (.done ⟨rfl, fun f hf => (by cases hf)⟩)
        · rename_i hunhandled
          have hdeep := isHandled_eq_false.mp (Bool.not_eq_true _ ▸ hunhandled)
          refine .done ⟨rfl, fun f hf => ?_⟩
          cases hf
          exact .inr ⟨_, why, Registry.faultAt_table hlatest hdecode, hdeep, rfl⟩
      | ok table => exact .bind ih fun out r'' hout => .done hout

theorem readGroup_reads (session : Session) (group : String) (r : Registry) :
    (readGroup session group).Ends (Outage C) r (ReadOnly r) := by
  refine .bind (call_reads session (c := .getSchemas group) rfl r) ?_
  rintro x r' ⟨rfl, htells, -⟩
  cases x with
  | error f => exact .done ⟨rfl, fun f' hf' => (by cases hf'; exact .inl (htells f rfl))⟩
  | ok schemas =>
    simp only
    split
    · exact Dialogue.Ends.say_bind (.done ⟨rfl, fun f hf => (by cases hf)⟩)
    · exact readTypes_reads session group _ r'

/-- The groups, one after the other. -/
theorem readGroups_reads (session : Session) (groups : List String) (r : Registry) :
    (readGroups session groups).Ends (Outage C) r (ReadOnly r) := by
  induction groups with
  | nil => exact .done ⟨rfl, fun f hf => (by cases hf)⟩
  | cons group groups ih =>
    refine Dialogue.Ends.say_bind (.bind (readGroup_reads session group r) ?_)
    rintro ⟨entries, outcome⟩ r' ⟨rfl, hout⟩
    cases outcome with
    | error f => exact .done ⟨rfl, fun f' hf' => (by cases hf'; exact hout f rfl)⟩
    | ok more =>
      cases more with
      | false => exact .done ⟨rfl, fun f hf => (by cases hf)⟩
      | true => exact .bind ih fun out r'' hout => .done hout

theorem readAll_reads (session : Session) (r : Registry) :
    (readAll session).Ends (Outage C) r (ReadOnly r) := by
  refine .bind (call_reads session (c := .listGroups) rfl r) ?_
  rintro x r' ⟨rfl, htells, -⟩
  cases x with
  | error f => exact .done ⟨rfl, fun f' hf' => (by cases hf'; exact .inl (htells f rfl))⟩
  | ok groups =>
    simp only
    split
    · exact Dialogue.Ends.say_bind (.done ⟨rfl, fun f hf => (by cases hf)⟩)
    · exact readGroups_reads session _ r'

/-- Reading the catalog swallows what tells of a loss, but not the depth of a document. -/
theorem build_ends (e : Endpoint) (r : Registry) :
    (build e).Ends (Outage C) r fun x _ => ∀ f, x = .error f → C f ∨ r.SpoiltBy f := by
  have hsession : (inSession e [] readAll).Ends (Outage C) r
      (KeptFailsOnly (LossOr fun f => C f ∨ r.SpoiltBy f)) :=
    inSession_failsOnly (fun _ hf => .inl (.inl hf)) (fun _ hf => .inr (.inl hf)) fun session =>
      (readAll_reads session r).mono fun _ _ hout f hf => (hout.2 f hf).imp_right .inr
  refine Dialogue.Ends.bind hsession ?_
  rintro ⟨entries, outcome⟩ r' hout
  cases outcome with
  | ok u => exact .done fun f hf => (by cases hf)
  | error f =>
    simp only
    split
    · exact Dialogue.Ends.say_bind (.done fun f hf => (by cases hf))
    · rename_i hreached
      split
      · exact Dialogue.Ends.say_bind (.done fun f hf => (by cases hf))
      · rename_i hthere
        refine .done fun f' hf' => ?_
        cases hf'
        exact (hout f rfl).resolve_left fun htells => htells.elim hreached hthere

end Snapshot

end

/-! ## Operations -/

namespace Catalog

variable (c : Catalog)

theorem requireNamespace_failsOnly (ns : Identifier) :
    Attempt.FailsOnly (Outage C) (Passes C) (c.requireNamespace ns) := by
  refine .bind ((Namespaces.has_failsOnly c.endpoint ns.toText).mono fun _ hf _ => hf) fun there => ?_
  cases there with
  | true => exact .pure ()
  | false => exact .throw fun hsystem => absurd hsystem Bool.false_ne_true

theorem listNamespaces_failsOnly (ns : Identifier) :
    Attempt.FailsOnly (Outage C) (Passes C) (c.listNamespaces ns) := by
  have hnames : Attempt.FailsOnly (Outage C) (Passes C) (Namespaces.names c.endpoint) :=
    (Namespaces.names_failsOnly c.endpoint).mono fun _ hf _ => hf
  unfold listNamespaces
  simp only
  split
  · exact .bind (c.requireNamespace_failsOnly ns) fun _ => .bind hnames fun _ => .pure _
  · exact .bind hnames fun _ => .pure _

section

variable [Json.Nesting]

theorem createTable_failsOnly (i : Identifier) (columns : TableColumns) (location : Value) (properties : Members) :
    Attempt.FailsOnly (Outage C) (Passes C) (c.createTable i columns location properties) := by
  refine .bind (c.requireNamespace_failsOnly _) fun _ => .lift_bind columns.isInner_toColumns.passes fun cs _ => ?_
  exact .lift_bind i.isInner_tableName.passes fun name _ => Tables.create_failsOnly c.endpoint _ name cs _

/-- Reading the catalog fails in two ways, and the depth of a document is none of the system. -/
theorem snapshot_failsOnly : Attempt.FailsOnly (Outage C) (Passes C) c.snapshot :=
  fun r => (Snapshot.build_ends c.endpoint r).mono fun _ _ hx f hf hsystem =>
    (hx f hf).resolve_right fun hspoilt => hspoilt.not_isSystem hsystem

theorem listTables_failsOnly (ns : Identifier) : Attempt.FailsOnly (Outage C) (Passes C) (c.listTables ns) := by
  refine .bind (c.requireNamespace_failsOnly ns) fun _ => .bind c.snapshot_failsOnly fun snapshot => ?_
  exact .lift_bind (snapshot.isInner_tables _).passes fun tables _ => .pure _

theorem tableSchema_failsOnly (i : Identifier) : Attempt.FailsOnly (Outage C) (Passes C) (c.tableSchema i) := by
  refine .lift_bind i.isInner_tableName.passes fun name _ => .bind c.snapshot_failsOnly fun snapshot => ?_
  refine .lift_bind (snapshot.isInner_find? _ _).passes fun found _ => ?_
  cases found with
  | none => exact .throw fun hsystem => absurd hsystem Bool.false_ne_true
  | some e => exact .lift e.isInner_schema.passes

end

/-- A table with a name is looked for without failing for it. -/
theorem hasTable_failsOnly {i : Identifier} (hname : i.toParts ≠ []) :
    Attempt.FailsOnly (Outage C) C (c.hasTable i) :=
  .lift_bind (fun f hf => absurd hf (i.tableName_ne_error hname f)) fun name _ =>
    Tables.has_failsOnly c.endpoint i.tableNamespace name

theorem dropTable_failsOnly {i : Identifier} (hname : i.toParts ≠ []) :
    Attempt.FailsOnly (Outage C) C (c.dropTable i) :=
  .lift_bind (fun f hf => absurd hf (i.tableName_ne_error hname f)) fun name _ =>
    .bind (Tables.drop_failsOnly c.endpoint i.tableNamespace name) fun _ => .pure _

end Catalog

namespace Operation

variable (c : Catalog)

/-- The operations that answer whatever is lost, those on a table if it has a name. -/
def IsTolerant : Operation → Prop
  | .hasNamespace _ | .snapshot => True
  | .hasTable i | .change (.dropTable i) => i.toParts ≠ []
  | _ => False

section

variable [Json.Nesting]

/-- Such an operation fails only as `C` says, or by a document of the registry that the catalog is read from. -/
theorem ends_of_isTolerant {o : Operation} (h : o.IsTolerant) (r : Registry) :
    (o.attempt c).Ends (Outage C) r fun x _ => ∀ f, x = .error f → C f ∨ o = .snapshot ∧ r.SpoiltBy f := by
  have hfails : ∀ {a : Attempt Unit}, Attempt.FailsOnly (Outage C) C a →
      a.Ends (Outage C) r fun x _ => ∀ f, x = .error f → C f ∨ o = .snapshot ∧ r.SpoiltBy f :=
    fun ha => (ha r).mono fun _ _ hx f hf => .inl (hx f hf)
  cases o with
  | snapshot =>
    refine (Snapshot.build_ends c.endpoint r).bind (fun _ _ _ => .done fun f hf => (by cases hf)) ?_
    intro e r' he f hf
    cases hf
    exact (he e rfl).imp_right fun hspoilt => ⟨rfl, hspoilt⟩
  | hasNamespace ns => exact hfails (.bind (Namespaces.has_failsOnly c.endpoint ns.toText) fun _ => .pure _)
  | hasTable i => exact hfails (.bind (c.hasTable_failsOnly h) fun _ => .pure _)
  | change a =>
    cases a with
    | dropTable i => exact hfails (c.dropTable_failsOnly h)
    | createNamespace _ _ | dropNamespace _ | createTable _ _ _ _ => exact h.elim
  | listNamespaces _ | listTables _ | tableSchema _ => exact h.elim

/-- Every operation fails by a failure of the system only as `C` says. -/
theorem failsOnly_passes (o : Operation) : Attempt.FailsOnly (Outage C) (Passes C) (o.attempt c) := by
  cases o with
  | change a =>
    cases a with
    | createNamespace ns properties =>
      exact (Namespaces.create_failsOnly c.endpoint ns.toText _).mono fun _ hf => hf.passes
    | dropNamespace ns => exact (Namespaces.drop_failsOnly c.endpoint ns.toText).mono fun _ hf => hf.passes
    | createTable i columns location properties =>
      exact .bind (c.createTable_failsOnly i columns location properties) fun _ => .pure _
    | dropTable i =>
      exact .lift_bind i.isInner_tableName.passes fun name _ =>
        .bind ((Tables.drop_failsOnly c.endpoint i.tableNamespace name).mono fun _ hf _ => hf) fun _ => .pure _
  | hasNamespace ns =>
    exact .bind ((Namespaces.has_failsOnly c.endpoint ns.toText).mono fun _ hf _ => hf) fun _ => .pure _
  | listNamespaces ns => exact .bind (c.listNamespaces_failsOnly ns) fun _ => .pure _
  | hasTable i =>
    have hhas : Attempt.FailsOnly (Outage C) (Passes C) (c.hasTable i) :=
      .lift_bind i.isInner_tableName.passes fun name _ =>
        (Tables.has_failsOnly c.endpoint i.tableNamespace name).mono fun _ hf _ => hf
    exact .bind hhas fun _ => .pure _
  | listTables ns => exact .bind (c.listTables_failsOnly ns) fun _ => .pure _
  | tableSchema i => exact .bind (c.tableSchema_failsOnly i) fun _ => .pure _
  | snapshot => exact .bind c.snapshot_failsOnly fun _ => .pure _

end

end Operation

/-- The failure is one that a client of the server raises when it is closed. -/
def Server.FailsClosing (s : Server) (f : Failure) : Prop :=
  ∃ fault ∈ s.faults, fault.point = .closing ∧ fault.failure = f

namespace Operation

/-- **A failure of the system leaves the catalog only from a closing.**  While clients raise failures of the
system, wherever and whenever, on any registry, an operation that fails by one of them fails as a client did when
it was closed.  Looking for a namespace, and looking for a table with a name or dropping it, fail in no other way
at all; reading the catalog fails in one other way, by a stored document that nests too deep to be read. -/
theorem raises_from_closing [Json.Nesting] (c : Catalog) {s : Server}
    (hs : ∀ fault ∈ s.faults, fault.failure.IsSystem) (o : Operation) {f : Failure} :
    let out := (o.attempt c).run.run Server.answer s
    out.result = .error f →
      (f.IsSystem → s.FailsClosing f) ∧
      (o.IsTolerant → s.FailsClosing f ∨ o = .snapshot ∧ s.registry.SpoiltBy f) := by
  intro out hf
  have hfaults : s.FaultsAre (Outage s.FailsClosing) := fun fault hfault =>
    ⟨hs fault hfault, fun hclosing => ⟨fault, hfault, hclosing, rfl⟩⟩
  exact ⟨(failsOnly_passes c o).run hfaults hf, fun h => (ends_of_isTolerant c h s.registry).run hfaults f hf⟩

/-- A server whose client is reset when it is closed. -/
def resetAtClosing : Server :=
  { Server.start true with faults := [⟨.closing, none, .raised .connectionReset "reset by peer", 0, 1⟩] }

theorem isSystem_resetAtClosing : ∀ fault ∈ resetAtClosing.faults, fault.failure.IsSystem := by
  intro fault hfault
  rw [List.mem_singleton.mp hfault]
  exact (rfl : Kind.isA .connectionReset .system = true)

section

open Json.Usual

/-- Looking for a namespace there fails for it. -/
theorem hasNamespace_resetAtClosing (c : Catalog) :
    (((Operation.hasNamespace (.name "sales")).attempt c).run.run Server.answer resetAtClosing).result =
      .error (.raised .connectionReset "reset by peer") := rfl

/-- It fails as the client did when it was closed. -/
theorem raises_from_closing_reset :
    ∃ (c : Catalog) (s : Server) (o : Operation) (f : Failure), (∀ fault ∈ s.faults, fault.failure.IsSystem) ∧
      o.IsTolerant ∧ ((o.attempt c).run.run Server.answer s).result = .error f ∧ s.FailsClosing f := by
  let c : Catalog := ⟨⟨.text "localhost", 9092, .text "default"⟩⟩
  let o : Operation := .hasNamespace (.name "sales")
  have htolerant : o.IsTolerant := trivial
  have hfailed := hasNamespace_resetAtClosing c
  obtain ⟨-, hraised⟩ := raises_from_closing c isSystem_resetAtClosing o hfailed
  have hother : Operation.hasNamespace (.name "sales") ≠ .snapshot := fun h => (by cases h)
  have hclosing := (hraised htolerant).resolve_right fun hsnapshot => hother hsnapshot.1
  exact ⟨c, resetAtClosing, o, _, isSystem_resetAtClosing, htolerant, hfailed, hclosing⟩

/-- Not every failure of the system is told as a loss: the one of a closing leaves the catalog as it is, even from
an operation that answers whatever is lost. -/
theorem not_always_told :
    ¬∀ (c : Catalog) (s : Server) (o : Operation) (f : Failure), (∀ fault ∈ s.faults, fault.failure.IsSystem) →
      ((o.attempt c).run.run Server.answer s).result = .error f → ¬f.IsSystem ∧ ¬o.IsTolerant := by
  intro htold
  let c : Catalog := ⟨⟨.text "localhost", 9092, .text "default"⟩⟩
  obtain ⟨-, hnot⟩ := htold c resetAtClosing (.hasNamespace (.name "sales")) _ isSystem_resetAtClosing
    (hasNamespace_resetAtClosing c)
  exact hnot trivial

end

end Operation

end SchemaCatalog
