/-
  Any run of a catalog on an empty registry.

  A run is any sequence of the catalog's operations, of which some may fail; with nothing wrong but what their
  callers hand over.  What is handed over are any values, so a table need not come back as it was described.
  What every run keeps is weaker than that of `snapshot_of_run`, and holds of all of them: each stored document
  is read as a table under its own names (`Registry.Legible`).  Operations that only read leave the registry
  alone, the others are those of the ledger.

  Of such a registry everything is listed: its tables are, type by type, what the latest documents are read as
  (`Legible.mem_tables`).
-/
import SchemaCatalog.Proofs.Document.Written
import SchemaCatalog.Proofs.Catalog.Refinement
import SchemaCatalog.Proofs.Catalog.Creating
import SchemaCatalog.Proofs.Snapshot.Lookup

namespace SchemaCatalog

variable {r : Registry}

/-! ## Operations -/

/-- Any operation of the catalog: one that changes it, or one that reads. -/
inductive Operation where
  | change (a : Action)
  | hasNamespace (ns : Identifier)
  | listNamespaces (ns : Identifier)
  | hasTable (i : Identifier)
  | listTables (ns : Identifier)
  | tableSchema (i : Identifier)
  | snapshot

namespace Operation

variable [Json.Nesting]

/-- The operation as the catalog attempts it. -/
def attempt (c : Catalog) : Operation → Attempt Unit
  | .change a => a.attempt c
  | .hasNamespace ns => do
    let _ ← c.hasNamespace ns
    return ()
  | .listNamespaces ns => do
    let _ ← c.listNamespaces ns
    return ()
  | .hasTable i => do
    let _ ← c.hasTable i
    return ()
  | .listTables ns => do
    let _ ← c.listTables ns
    return ()
  | .tableSchema i => do
    let _ ← c.tableSchema i
    return ()
  | .snapshot => do
    let _ ← c.snapshot
    return ()

/-- The server after an operation, whether or not that fails. -/
def after (c : Catalog) (s : Server) (o : Operation) : Server :=
  ((o.attempt c).run.run Server.answer s).state

end Operation

/-! ## Operations that read -/

/-- A table is looked for by reading calls of the session's client. -/
theorem Tables.hasIn_asks {P : Request → Prop} {session : Session}
    (hreading : ∀ c : Call, c.isReading = true → P (.call session.client c)) (ns name : String) :
    Attempt.AsksOnly P (Tables.hasIn session ns name) := by
  refine .bind (.call (hreading _ rfl)) fun groups => ?_
  split
  · exact .bind (.say _ _ _) fun _ => .pure _
  · split
    · exact .pure _
    · refine .bind (.call (hreading _ rfl)) fun schemas => ?_
      split
      · exact .bind (.say _ _ _) fun _ => .pure _
      · exact .pure _

theorem Tables.has_asks (e : Endpoint) (ns name : String) :
    Attempt.AsksOnly Request.IsReading (Tables.has e ns name) := by
  refine .handle (.handle (asksOnly_attemptInSession trivial (fun _ => trivial) fun session => ?_)
    fun f => .bind (.say _ _ _) fun _ => .pure _) fun _ => .bind (.say _ _ _) fun _ => .pure _
  exact Tables.hasIn_asks (fun _ hc => hc) ns name

namespace Catalog

variable (c : Catalog)

theorem listNamespaces_asks (ns : Identifier) : Attempt.AsksOnly Request.IsReading (c.listNamespaces ns) := by
  have hnames := Namespaces.names_asks c.endpoint
  unfold listNamespaces
  simp only
  split
  · exact .bind (c.requireNamespace_asks ns) fun _ => .bind hnames fun _ => .pure _
  · exact .bind hnames fun _ => .pure _

theorem hasTable_asks (i : Identifier) : Attempt.AsksOnly Request.IsReading (c.hasTable i) :=
  .lift_bind fun name _ => Tables.has_asks c.endpoint i.tableNamespace name

theorem listTables_asks [Json.Nesting] (ns : Identifier) : Attempt.AsksOnly Request.IsReading (c.listTables ns) :=
  .bind (c.requireNamespace_asks ns) fun _ => .bind (Snapshot.build_asks c.endpoint) fun _ =>
    .lift_bind fun _ _ => .pure _

theorem tableSchema_asks [Json.Nesting] (i : Identifier) :
    Attempt.AsksOnly Request.IsReading (c.tableSchema i) := by
  refine .lift_bind fun name _ => .bind (Snapshot.build_asks c.endpoint) fun _ => .lift_bind fun found _ => ?_
  cases found with
  | none => exact .throw _
  | some e => exact .lift _

end Catalog

/-! ## What an operation keeps -/

section Keeping

variable [Json.Nesting]

/-- Every stored document is read as a table under its own names: some ledger reflects the registry. -/
def Registry.Legible (r : Registry) : Prop := ∃ l : Ledger, Reflects l r

/-- A creation ends with a version exactly if all that it needs is there; then this is what it does. -/
theorem Catalog.createTable_gives (c : Catalog) (i : Identifier) (columns : TableColumns) (location : Value)
    (properties : Members) (r : Registry) :
    (∃ cs name document g, columns.toColumns = .ok cs ∧ i.tableName = .ok name ∧
        Document.encodeTable ⟨.text i.tableNamespace, .text name, cs, withLocation location properties⟩ =
          .ok document ∧ r.group? i.tableNamespace = some g ∧
        (c.createTable i columns location properties).Gives r
          (.ok (r.newSchema g (Tables.schemaOf name document)).version)
          (r.addSchema g (Tables.schemaOf name document))) ∨
      ∃ f, (c.createTable i columns location properties).Gives r (.error f) r := by
  by_cases hall : ∃ cs name document g, columns.toColumns = .ok cs ∧ i.tableName = .ok name ∧
      Document.encodeTable ⟨.text i.tableNamespace, .text name, cs, withLocation location properties⟩ =
        .ok document ∧ r.group? i.tableNamespace = some g
  · obtain ⟨cs, name, document, g, hcs, hname, hdocument, hg⟩ := hall
    exact .inl ⟨cs, name, document, g, hcs, hname, hdocument, hg, c.createTable_stored hcs hname hdocument hg⟩
  · refine .inr (c.createTable_failed fun cs name document g hcs hname hdocument hg => hall ?_)
    exact ⟨cs, name, document, g, hcs, hname, hdocument, hg⟩

namespace Registry

theorem legible_empty : Registry.empty.Legible := ⟨[], reflects_empty⟩

/-- A table that is stored under its names keeps the registry legible. -/
theorem Legible.addSchema (h : r.Legible) {cs : List Column} {ns name document : String} {properties : Members}
    {g : Group} (hdocument : Document.encodeTable ⟨.text ns, .text name, cs, properties⟩ = .ok document)
    (hg : r.group? ns = some g) : (r.addSchema g (Tables.schemaOf name document)).Legible := by
  obtain ⟨l, hl⟩ := h
  obtain ⟨t, ht, hdatabase, htablename, -⟩ := Document.exists_decode_of_encodeTable hdocument
  refine ⟨_, hl.createTable ht ?_ htablename⟩
  rw [name_of_group? hg]
  exact hdatabase

/-- An operation that changes a legible registry leaves it legible, whether or not it fails. -/
theorem Legible.change (h : r.Legible) (c : Catalog) (a : Action) :
    ∃ x r', (a.attempt c).Gives r x r' ∧ r'.Legible := by
  obtain ⟨l, hl⟩ := id h
  cases a with
  | createNamespace ns properties =>
    exact ⟨_, _, c.createNamespace_gives ns properties r, _, hl.createNamespace ns.toText _⟩
  | dropNamespace ns => exact ⟨_, _, c.dropNamespace_gives ns r, _, hl.dropNamespace ns.toText⟩
  | createTable i columns location properties =>
    obtain ⟨cs, name, document, g, -, -, hdocument, hg, hgives⟩ | ⟨f, hgives⟩ :=
      c.createTable_gives i columns location properties r
    · exact ⟨_, _, Attempt.Gives.bind hgives (.pure () _), h.addSchema hdocument hg⟩
    · exact ⟨_, r, Attempt.Gives.bind_error hgives, h⟩
  | dropTable i =>
    cases hname : i.tableName with
    | error f => exact ⟨_, r, c.dropTable_nameless hname r, h⟩
    | ok name => exact ⟨_, _, c.dropTable_gives hname hl.sound, _, hl.dropTable i.tableNamespace name⟩

end Registry

/-- A healthy server with a legible registry. -/
def Server.Orderly (s : Server) : Prop := s.Healthy ∧ s.registry.Legible

/-- What only reads leaves a server orderly. -/
theorem Attempt.AsksOnly.orderly {α : Type} {a : Attempt α} (ha : Attempt.AsksOnly Request.IsReading a)
    {s : Server}
    (hs : s.Orderly) : ((do let _ ← a; return () : Attempt Unit).run.run Server.answer s).state.Orderly := by
  have hasks : Attempt.AsksOnly Request.IsReading (do let _ ← a; return () : Attempt Unit) :=
    .bind ha fun _ => .pure _
  refine ⟨Dialogue.AsksOnly.play_healthy hasks hs.1, ?_⟩
  have hregistry := Dialogue.AsksOnly.play_registry hasks s
  exact hregistry ▸ hs.2

/-- A creation leaves a server orderly, whether or not it fails. -/
theorem Server.Orderly.createTable {s : Server} (hs : s.Orderly) (c : Catalog) (i : Identifier)
    (columns : Catalog.TableColumns) (location : Value) (properties : Members) :
    ((c.createTable i columns location properties).run.run Server.answer s).state.Orderly := by
  obtain ⟨cs, name, document, g, -, -, hdocument, hg, hgives⟩ | ⟨f, hgives⟩ :=
    c.createTable_gives i columns location properties s.registry
  · obtain ⟨-, hs', hr'⟩ := hgives.run hs.1 rfl
    exact ⟨hs', hr' ▸ hs.2.addSchema hdocument hg⟩
  · obtain ⟨-, hs', hr'⟩ := hgives.run hs.1 rfl
    exact ⟨hs', hr' ▸ hs.2⟩

/-- What an operation that changes the catalog leaves. -/
theorem Operation.after_change {c : Catalog} {s : Server} (hs : s.Healthy) (hr : s.registry = r) {a : Action}
    {x : Except Failure Unit} {r' : Registry} (h : (a.attempt c).Gives r x r') :
    ((Operation.change a).after c s).Healthy ∧ ((Operation.change a).after c s).registry = r' := (h.run hs hr).2

/-- Every operation leaves a server orderly, whether or not it fails. -/
theorem Server.Orderly.after {s : Server} (hs : s.Orderly) (c : Catalog) (o : Operation) :
    (o.after c s).Orderly := by
  cases o with
  | change a =>
    obtain ⟨x, r', hgives, hr'⟩ := hs.2.change c a
    obtain ⟨hhealthy, hregistry⟩ := Operation.after_change hs.1 rfl hgives
    exact ⟨hhealthy, hregistry ▸ hr'⟩
  | hasNamespace ns => exact (Namespaces.has_asks c.endpoint ns.toText).orderly hs
  | listNamespaces ns => exact (c.listNamespaces_asks ns).orderly hs
  | hasTable i => exact (c.hasTable_asks i).orderly hs
  | listTables ns => exact (c.listTables_asks ns).orderly hs
  | tableSchema i => exact (c.tableSchema_asks i).orderly hs
  | snapshot => exact (Snapshot.build_asks c.endpoint).orderly hs

/-- Any number of operations. -/
theorem Server.Orderly.run {s : Server} (hs : s.Orderly) (c : Catalog) (operations : List Operation) :
    (operations.foldl (Operation.after c) s).Orderly := by
  induction operations generalizing s with
  | nil => exact hs
  | cons o operations ih => exact ih (hs.after c o)

end Keeping

/-! ## What is listed of a legible registry -/

/-- A stored document is read under the names of its group and its type. -/
theorem Reflects.exists_decode [Json.Nesting] {l : Ledger} (h : Reflects l r) {g : Group} (hg : g ∈ r.groups)
    {s : StoredSchema}
    (hs : s ∈ g.schemas) :
    ∃ t, Document.decode s.info.data = .ok t ∧ t.database = .text g.name ∧ t.tablename = .text s.info.type := by
  have hcontents : g.contents ∈ l.map Shelf.contents := h.contents ▸ List.mem_map_of_mem hg
  obtain ⟨shelf, hshelf, heq⟩ := List.mem_map.mp hcontents
  have hname : shelf.name = g.name := congrArg Prod.fst heq
  have hversions : (shelf.versions.map fun v => (v.1, Except.ok v.2)) = g.schemas.map StoredSchema.content :=
    congrArg Prod.snd heq
  have hcontent : s.content ∈ g.schemas.map StoredSchema.content := List.mem_map_of_mem hs
  rw [← hversions] at hcontent
  obtain ⟨v, hv, hcontent⟩ := List.mem_map.mp hcontent
  obtain ⟨hdatabase, htablename⟩ := h.named shelf hshelf v hv
  have htype : v.1 = s.info.type := congrArg Prod.fst hcontent
  have hread : Except.ok v.2 = Document.decode s.info.data := congrArg Prod.snd hcontent
  exact ⟨v.2, hread.symm, hname ▸ hdatabase, htype ▸ htablename⟩

namespace Registry

theorem latestOf_eq_some {group type : String} {s : StoredSchema} (h : r.latestOf group type = some s) :
    ∃ g, r.group? group = some g ∧ s ∈ g.schemas ∧ s.info.type = type := by
  obtain ⟨g, hg, hs⟩ := Option.bind_eq_some_iff.mp h
  obtain ⟨hmem, htype⟩ := List.mem_filter.mp (List.mem_of_getLast? hs)
  exact ⟨g, hg, hmem, beq_iff_eq.mp htype⟩

/-- What was added to a group is the latest of its type there. -/
theorem latestOf_addSchema {ns : String} {g : Group} (hg : r.group? ns = some g) (info : SchemaInfo) :
    (r.addSchema g info).latestOf ns info.type = some (r.newSchema g info) := by
  have hname := name_of_group? hg
  have hfound : (r.addSchema g info).group? ns = some { g with schemas := g.schemas ++ [r.newSchema g info] } := by
    have hupdated : (r.updateSchemas g.name (· ++ [r.newSchema g info])).group? ns = _ :=
      group?_updateSchemas (· ++ [r.newSchema g info]) ns
    rw [hg, Option.map_some, if_pos (beq_self_eq_true g.name)] at hupdated
    exact hupdated
  have hnew : ofType info.type (r.newSchema g info) = true := beq_self_eq_true info.type
  rw [latestOf, hfound, Option.bind_some, latest?, List.filter_append, List.filter_cons_of_pos hnew]
  exact List.getLast?_concat

/-- A type of a group with a latest version is a position. -/
theorem mem_positions {group type : String} {s : StoredSchema} (h : r.latestOf group type = some s) :
    Position.table group type ∈ r.positions := by
  obtain ⟨g, hg, hs, rfl⟩ := latestOf_eq_some h
  refine List.mem_flatMap.mpr ⟨g, List.mem_of_find?_eq_some hg, ?_⟩
  rw [name_of_group? hg, schemasOf_of_some hg, positionsIn, if_neg]
  · exact List.mem_map_of_mem (List.mem_eraseDups.mpr (List.mem_map_of_mem hs))
  · rw [List.isEmpty_iff]
    exact List.ne_nil_of_mem hs

variable [Json.Nesting]

/-- Everything is listed of a legible registry. -/
theorem Legible.map_listing (h : r.Legible) : r.listing.map some = r.positions.map r.entryAt := by
  obtain ⟨l, hl⟩ := h
  rw [listing_of_whole hl.worth, hl.worth]

theorem Legible.listed (h : r.Legible) : r.listed = .ok ⟨r.listing⟩ := listed_of_whole h.map_listing.symm

/-- The tables listed of a legible registry are its latest documents, type by type. -/
theorem Legible.mem_tables (h : r.Legible) {e : Entry} :
    e ∈ r.tables ↔ ∃ group type s t, r.latestOf group type = some s ∧ Document.decode s.info.data = .ok t ∧
      t.database = .text group ∧ t.tablename = .text type ∧ e = .ofTable t := by
  constructor
  · intro he
    obtain ⟨hlisted, htable⟩ := List.mem_filter.mp he
    obtain ⟨p, -, hp⟩ := exists_of_mem_listing hlisted
    cases p with
    | group name =>
      cases hp
      cases htable
    | table group type =>
      obtain ⟨s, hs, hread⟩ := Option.bind_eq_some_iff.mp hp
      obtain ⟨t, ht, rfl⟩ := Option.map_eq_some_iff.mp hread
      obtain ⟨g, hg, hmem, rfl⟩ := latestOf_eq_some hs
      obtain ⟨l, hl⟩ := h
      obtain ⟨t', ht', hdatabase, htablename⟩ := hl.exists_decode (List.mem_of_find?_eq_some hg) hmem
      rw [ht'] at ht
      cases ht
      exact ⟨group, _, s, _, hs, ht', name_of_group? hg ▸ hdatabase, htablename, rfl⟩
  · rintro ⟨group, type, s, t, hs, ht, -, htablename, rfl⟩
    have hentry : r.entryAt (.table group type) = some (.ofTable t) := entryAt_table hs ht
    have hlisted : some (Entry.ofTable t) ∈ r.listing.map some := by
      rw [h.map_listing, ← hentry]
      exact List.mem_map_of_mem (mem_positions hs)
    obtain ⟨e, he, heq⟩ := List.mem_map.mp hlisted
    cases heq
    refine List.mem_filter.mpr ⟨he, ?_⟩
    simp [Entry.isNamespace, Entry.ofTable, htablename]

/-- A listed table is named by a group and by a type of one of its versions. -/
theorem Legible.exists_names (h : r.Legible) {e : Entry} (he : e ∈ r.tables) :
    ∃ g s, r.group? g.name = some g ∧ s ∈ g.schemas ∧ e.ns = .text g.name ∧ e.table = .text s.info.type := by
  obtain ⟨group, type, s, t, hs, -, hdatabase, htablename, rfl⟩ := h.mem_tables.mp he
  obtain ⟨g, hg, hmem, rfl⟩ := latestOf_eq_some hs
  obtain rfl := name_of_group? hg
  exact ⟨g, s, hg, hmem, hdatabase, htablename⟩

/-- Every type of a group is listed under the two names. -/
theorem Legible.exists_listed (h : r.Legible) {g : Group} (hg : r.group? g.name = some g) {s : StoredSchema}
    (hs : s ∈ g.schemas) : ∃ e ∈ r.tables, e.ns = .text g.name ∧ e.table = .text s.info.type := by
  obtain ⟨newest, hnewest⟩ := exists_latest (g := g) (List.mem_map_of_mem hs)
  have hlatest : r.latestOf g.name s.info.type = some newest := by rw [latestOf, hg, Option.bind_some, hnewest]
  obtain ⟨g', hg', hmem, htype⟩ := latestOf_eq_some hlatest
  obtain rfl : g = g' := Option.some.inj (hg.symm.trans hg')
  obtain ⟨l, hl⟩ := id h
  obtain ⟨t, ht, hdatabase, htablename⟩ := hl.exists_decode (mem_of_group? hg) hmem
  rw [htype] at htablename
  exact ⟨.ofTable t, h.mem_tables.mpr ⟨_, _, newest, t, hlatest, ht, hdatabase, htablename, rfl⟩,
    hdatabase, htablename⟩

end Registry

end SchemaCatalog
