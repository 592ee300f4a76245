/-
  The schema of a table that was just created.

  A table is stored under its names as they are given and looked up with letter case aside.  So what is loaded
  right after a creation is the schema of the first listed table that has the two names, and the created one need
  not be the first: a namespace or a table whose name differs in letter case alone can come before it.  Where it
  is the first, its own fields come back in their order, numbered from one, all optional, the narrow integers as
  wide ones.

  The steps are those of a table on its way: the fields as columns (`columnsOfFields_eq_ok`), the columns in the
  document (`exists_decode_of_encodeTable`), the document as the latest version (`latestOf_addSchema`), the table
  among those listed (`Legible.mem_tables`), and its columns as fields again (`stored_columnsOfFields`).
-/
import SchemaCatalog.Proofs.Catalog.Operations
import SchemaCatalog.Proofs.Catalog.Reads

namespace SchemaCatalog

open Text (Points)

variable {r : Registry}

/-! ## Fields and columns -/

/-- The type of a field once its column was stored: integers are wide ones. -/
def FieldType.widened : FieldType → FieldType
  | .int => .long
  | t => t

theorem ColumnKind.widened_field (k : ColumnKind) : k.field.widened = k.stored.field := by cases k <;> rfl

/-- The fields of a table as they are loaded: numbered, optional, and with wide integers. -/
def loadedFields (fields : List (Field String FieldType)) : List (Field Points FieldType) :=
  numbered 1 (fields.map fun f => ((f.name : Points), f.type.widened))

namespace Catalog

/-- Fields have columns if their types stand for kinds, which the columns then name. -/
theorem columnsOfFields_eq_ok {fs : List (Field String FieldType)} {cs : List Column}
    (h : columnsOfFields fs = .ok cs) :
    ∃ ks : List (String × ColumnKind), cs = (ks.map fun k => ⟨.text k.1, .text k.2.name⟩) ∧
      fs.map (fun f => (f.name, f.type)) = ks.map fun k => (k.1, k.2.field) := by
  induction fs generalizing cs with
  | nil => cases h; exact ⟨[], rfl, rfl⟩
  | cons f fs ih =>
    unfold columnsOfFields at h
    split at h
    · cases h
    · rename_i kind hkind
      split at h
      · cases h
      · rename_i cs' hcs'
        cases h
        obtain ⟨ks, rfl, hks⟩ := ih hcs'
        have htype : f.type = kind.field := by
          unfold ColumnKind.ofField at hkind
          split at hkind
          · rename_i k hk
            cases hkind
            exact FieldType.column?_eq_some.mp hk
          · cases hkind
        refine ⟨(f.name, kind) :: ks, rfl, ?_⟩
        rw [List.map_cons, hks, htype, List.map_cons]

/-- The columns of fields with different names, once they are stored. -/
theorem stored_columnsOfFields {ks : List (String × ColumnKind)} (hnames : (ks.map Prod.fst).Nodup) :
    Column.stored (ks.map fun k => ⟨.text k.1, .text k.2.name⟩) =
      (ks.map fun k => ((k.1 : Points), k.2.json)).map Column.ofMember := by
  have htyped : Column.typed (ks.map fun k => ⟨.text k.1, .text k.2.name⟩) =
      ks.map fun k => (k.1, .text k.2.name) := by
    rw [Column.typed, List.filterMap_map]
    show ks.filterMap (some ∘ fun k => (k.1, (.text k.2.name : Value))) = _
    rw [List.filterMap_eq_map]
  have hlatest : latest (ks.map fun k => (k.1, (.text k.2.name : Value))) =
      ks.map fun k => (k.1, .text k.2.name) := by
    refine latest_of_nodup ?_
    rw [List.map_map]
    exact hnames
  rw [Column.stored, htyped, hlatest, List.map_map, List.map_map]
  refine List.map_congr_left fun k _ => ?_
  rw [Function.comp_apply, Function.comp_apply, Column.ofMember, Value.ofPoints_string, ColumnKind.column_json,
    Column.storedType, ColumnKind.storedName_eq (ColumnKind.ofName?_name k.2)]

/-- A schema whose fields have columns gives them different names. -/
theorem nodup_names_of_ofFields {schema : Schema String}
    (hschema : Schema.ofFields schema.fields = .ok schema) {ks : List (String × ColumnKind)}
    (hks : schema.fields.map (fun f => (f.name, f.type)) = ks.map fun k => (k.1, k.2.field)) :
    (ks.map Prod.fst).Nodup := by
  have htypes : ∀ f ∈ schema.fields, ∃ k : ColumnKind, f.type = k.field := by
    intro f hf
    have hmem : (f.name, f.type) ∈ ks.map fun k => (k.1, k.2.field) := hks ▸ List.mem_map_of_mem hf
    obtain ⟨k, -, hk⟩ := List.mem_map.mp hmem
    exact ⟨k.2, (congrArg Prod.snd hk).symm⟩
  have hnames := (Schema.ofFields_eq_ok.mp hschema).1
  rw [map_name_fullNames htypes] at hnames
  have hnames : (schema.fields.map Field.name).Nodup :=
    List.Nodup.of_map (fun s : String => (s : Points)) (by rw [List.map_map]; exact hnames)
  have hfst := congrArg (List.map Prod.fst) hks
  rw [List.map_map, List.map_map] at hfst
  have hsame : schema.fields.map Field.name = ks.map Prod.fst := hfst
  rwa [← hsame]

/-- The schema of a table read from a document that holds the columns of a schema. -/
theorem schema_of_columnsOfFields {schema : Schema String}
    (hschema : Schema.ofFields schema.fields = .ok schema) {cs : List Column}
    (hcs : columnsOfFields schema.fields = .ok cs) {e : Entry} (htable : e.isNamespace = false)
    (hcolumns : e.columns = Column.stored cs) : e.schema = .ok ⟨loadedFields schema.fields⟩ := by
  obtain ⟨ks, rfl, hks⟩ := columnsOfFields_eq_ok hcs
  have hnames := nodup_names_of_ofFields hschema hks
  rw [stored_columnsOfFields hnames] at hcolumns
  have hjson : ((ks.map fun k => ((k.1 : Points), k.2.json)).map Prod.fst).Nodup := by
    have hpoints := hnames.map Value.points_injective
    rw [List.map_map] at hpoints ⊢
    exact hpoints
  rw [Entry.schema_ofMember htable hcolumns hjson, loadedFields]
  have hfields : (ks.map fun k => ((k.1 : Points), k.2.json)).map fieldOfMember =
      schema.fields.map fun f => ((f.name : Points), f.type.widened) := by
    have hwiden := congrArg (List.map fun f : String × FieldType => ((f.1 : Points), f.2.widened)) hks
    rw [List.map_map, List.map_map] at hwiden
    refine Eq.trans ?_ hwiden.symm
    rw [List.map_map]
    refine List.map_congr_left fun k _ => ?_
    rw [Function.comp_apply, Function.comp_apply, fieldOfMember, ColumnKind.column_json, ColumnKind.widened_field]
  rw [hfields]

/-! ## What is loaded -/

variable (c : Catalog)

section Loaded

variable [Json.Nesting]

/-- In a legible registry the tables of a namespace are those that are listed with its name. -/
theorem tables_of_legible (h : r.Legible) (ns : String) :
    Snapshot.tables ⟨r.listing⟩ (.text ns) = .ok (r.tables.filter fun e => e.ns.isCalled ns) := by
  refine Registry.tables_placed ?_ ns
  rintro ⟨e, he, htext⟩
  obtain ⟨g, -, -, -, hns, -⟩ := h.exists_names he
  exact htext (hns ▸ Value.isText_text g.name)

/-- A table is looked up as the first that is listed with its names. -/
theorem find?_of_legible (h : r.Legible) (ns name : String) :
    Snapshot.find? ⟨r.listing⟩ (.text ns) (.text name) =
      .ok (r.tables.find? fun e => e.ns.isCalled ns && e.table.isCalled name) := by
  have hnames : ∀ e ∈ r.tables.filter (fun e => e.ns.isCalled ns), e.table.hasCase = true := by
    intro e he
    obtain ⟨-, s, -, -, -, htable⟩ := h.exists_names (List.mem_of_mem_filter he)
    rw [htable]
    exact Value.hasCase_text s.info.type
  rw [Snapshot.find?, tables_of_legible h]
  simp only
  rw [Snapshot.firstNamed_of_hasCase hnames, List.find?_filter]
  simp only [Bool.decide_and, Bool.decide_eq_true]

/-- What is loaded from a server with a legible registry is the schema of that table. -/
theorem tableSchema_of_legible {s : Server} (hs : s.Orderly) {i : Identifier} {name : String}
    (hname : i.tableName = .ok name) {first : Entry}
    (hfirst : (s.registry.tables.find? fun e => e.ns.isCalled i.tableNamespace && e.table.isCalled name) =
      some first) : ((c.tableSchema i).run.run Server.answer s).result = first.schema := by
  have hloaded := ((c.tableSchema_gives hname s.registry).run hs.1 rfl).1
  rw [hs.2.listed, Except.bind] at hloaded
  rwa [find?_of_legible hs.2, hfirst] at hloaded

/-- Once a document is stored, its names are those of a listed table.  The first listed one with these names has a
schema; and if it is spelled exactly so, it has the columns of the document. -/
theorem exists_first_of_addSchema (h : r.Legible) {ns name document : String} {cs : List Column}
    {properties : Members} {g : Group}
    (hdocument : Document.encodeTable ⟨.text ns, .text name, cs, properties⟩ = .ok document)
    (hg : r.group? ns = some g) (hnames : ∀ c ∈ cs, ∃ n, c.name = .text n) :
    ∃ first found,
      ((r.addSchema g (Tables.schemaOf name document)).tables.find? fun e =>
        e.ns.isCalled ns && e.table.isCalled name) = some first ∧
      first.isNamespace = false ∧ first.schema = .ok found ∧
      (first.ns = .text ns ∧ first.table = .text name → first.columns = Column.stored cs) := by
  have hlegible := h.addSchema hdocument hg
  have hlatest : (r.addSchema g (Tables.schemaOf name document)).latestOf ns name = _ :=
    Registry.latestOf_addSchema hg (Tables.schemaOf name document)
  obtain ⟨t, ht, hdatabase, htablename, hcolumns, -⟩ := Document.exists_decode_of_encodeTable hdocument
  have hlisted : Entry.ofTable t ∈ (r.addSchema g (Tables.schemaOf name document)).tables :=
    hlegible.mem_tables.mpr ⟨ns, name, _, t, hlatest, ht, hdatabase, htablename, rfl⟩
  -- the stored table has the names itself, so the search does not end without one
  have hsome : ((r.addSchema g (Tables.schemaOf name document)).tables.find? fun e =>
      e.ns.isCalled ns && e.table.isCalled name).isSome = true := by
    refine List.find?_isSome.mpr ⟨_, hlisted, ?_⟩
    simp [Entry.ofTable, hdatabase, htablename, Text.sameName]
  obtain ⟨first, hfirst⟩ := Option.isSome_iff_exists.mp hsome
  have hmem := List.mem_of_find?_eq_some hfirst
  have htable := (List.mem_filter.mp hmem).2
  rw [Bool.not_eq_true'] at htable
  obtain ⟨group, type, latest, t', hlatest', ht', hdatabase', htablename', rfl⟩ := hlegible.mem_tables.mp hmem
  obtain ⟨found, hfound⟩ := Entry.exists_schema ht' htable
  refine ⟨_, found, hfirst, htable, hfound, ?_⟩
  rintro ⟨hns, hname⟩
  -- two tables with the same names are read from the same latest document
  obtain rfl : group = ns := Value.text.inj (hdatabase'.symm.trans hns)
  obtain rfl : type = name := Value.text.inj (htablename'.symm.trans hname)
  rw [hlatest] at hlatest'
  cases hlatest'
  obtain rfl : t' = t := Except.ok.inj (ht'.symm.trans ht)
  exact hcolumns hnames

/-- The document of a table that is created from a schema is read as a table that has it. -/
theorem exists_decode_of_writes {i : Identifier} {schema : Schema String} {location : Value}
    {properties : Members} {name document : String} (hschema : Schema.ofFields schema.fields = .ok schema)
    (hwrites : Writes i (.schema schema) location properties name document) :
    ∃ t, Document.decode (.bytes (Text.Utf8.encode document.toList)) = .ok t ∧
      t.database = .text i.tableNamespace ∧ t.tablename = .text name ∧
      (Entry.ofTable t).schema = .ok ⟨loadedFields schema.fields⟩ := by
  obtain ⟨cs, hcs, -, hdocument⟩ := hwrites
  obtain ⟨t, ht, hdatabase, htablename, hcolumns, -⟩ := Document.exists_decode_of_encodeTable hdocument
  have htable : (Entry.ofTable t).isNamespace = false := by simp [Entry.isNamespace, Entry.ofTable, htablename]
  exact ⟨t, ht, hdatabase, htablename,
    schema_of_columnsOfFields hschema hcs htable (hcolumns (named_columnsOfFields hcs))⟩

end Loaded

/-! ## Two tables of a namespace -/

/-- Properties that a table needs. -/
def needed : Members := [(.text "format", .text "csv"), (.text "external_location", .text "s3://b/o/")]

theorem lowered_needed :
    Options.lowered needed = [("format", .text "csv"), ("external_location", .text "s3://b/o/")] := by
  have hformat : Text.lower "format" = "format" := Options.lower_of_mem_names (by decide)
  have hplace : Text.lower "external_location" = "external_location" := Options.lower_of_mem_names (by decide)
  simp [Options.lowered, needed, Value.text?, Options.spelled, hformat, hplace]

/-- With them there is a document for the columns of any schema, whatever the names of the table. -/
theorem exists_writes_needed [Json.Nesting] {i : Identifier} {name : String} {schema : Schema String}
    {cs : List Column}
    (hcs : columnsOfFields schema.fields = .ok cs) (hname : i.tableName = .ok name) :
    ∃ document, Writes i (.schema schema) .null needed name document := by
  have htable : Table.Plain ⟨.text i.tableNamespace, .text name, cs, needed⟩ := by
    refine ⟨.text _, .text _, named_columnsOfFields hcs, by simp [needed], fun p hp _ _ _ => ?_⟩
    simp only [needed, List.mem_cons, List.not_mem_nil, or_false] at hp
    rcases hp with rfl | rfl <;> exact .text _
  have htypes : ∀ column ∈ cs, Column.IsKnown column.type := by
    obtain ⟨ks, rfl, -⟩ := columnsOfFields_eq_ok hcs
    intro column hcolumn
    obtain ⟨k, -, rfl⟩ := List.mem_map.mp hcolumn
    exact Column.isKnown_iff.mpr ⟨_, _, rfl, ColumnKind.ofName?_name k.2⟩
  have hformat : Options.effective? "format" needed = some (.text "csv") := by
    rw [Options.effective?, lowered_needed]
    rfl
  have hplace : Options.effective? "external_location" needed = some (.text "s3://b/o/") := by
    rw [Options.effective?, lowered_needed]
    rfl
  have hsplit : Location.split? "s3://b/o/".toList = some (['b'], "/o/".toList) := rfl
  have hfits : Table.Fits ⟨.text i.tableNamespace, .text name, cs, needed⟩ := by
    refine ⟨Value.within_scalar rfl, Value.within_scalar rfl, fun k _ v hv => ?_⟩
    obtain ⟨_, w, hmem, -, rfl⟩ := Options.exists_of_effective? hv
    simp only [needed, List.mem_cons, List.not_mem_nil, or_false, Prod.mk.injEq] at hmem
    rcases hmem with ⟨-, rfl⟩ | ⟨-, rfl⟩ <;> exact Value.within_scalar rfl
  obtain ⟨document, hdocument⟩ := Document.exists_document htable hfits
    (Table.stored?_eq_some.mpr ⟨_, _, _, _, hformat, hplace, hsplit, rfl, htypes, rfl⟩)
  exact ⟨document, cs, hcs, hname, hdocument⟩

/-- A registry with the namespace `sales` alone. -/
def salesOf (stored : List StoredSchema) : Registry := ⟨[⟨"sales", .ofOwner (.text ""), stored⟩], stored.length⟩

/-- The first version of a table. -/
def firstVersion (name document : String) (id : Nat) : StoredSchema :=
  ⟨Tables.schemaOf name document, ⟨name, 0, id⟩⟩

/-- A table of another name is created there. -/
theorem createTable_salesOf [Json.Nesting] {stored : List StoredSchema} {name document : String}
    {schema : Schema String}
    (hwrites : Writes (.parts ["sales", name]) (.schema schema) .null needed name document)
    (hnew : stored.countP (Registry.ofType name) = 0) :
    (c.createTable (.parts ["sales", name]) (.schema schema) .null needed).Gives (salesOf stored)
      (.ok ⟨name, 0, stored.length⟩) (salesOf (stored ++ [firstVersion name document stored.length])) := by
  obtain ⟨cs, hcs, hname, hdocument⟩ := hwrites
  let g : Group := ⟨"sales", .ofOwner (.text ""), stored⟩
  have hg : (salesOf stored).group? "sales" = some g := rfl
  have hcount : stored.countP (Registry.ofType (Tables.schemaOf name document).type) = 0 := hnew
  have hversion : (salesOf stored).newSchema g (Tables.schemaOf name document) =
      firstVersion name document stored.length := by
    rw [Registry.newSchema, hcount]
    rfl
  have hadded : (salesOf stored).addSchema g (Tables.schemaOf name document) =
      salesOf (stored ++ [firstVersion name document stored.length]) := by
    rw [Registry.addSchema, hversion, salesOf, salesOf, List.length_append]
    rfl
  have hstored := c.createTable_stored hcs hname hdocument hg
  rwa [hversion, hadded] at hstored

/-- What two tables there are read as. -/
theorem tables_salesOf [Json.Nesting] {name name' document document' : String} {t t' : StoredTable}
    (hother : name ≠ name')
    (ht : Document.decode (.bytes (Text.Utf8.encode document.toList)) = .ok t)
    (ht' : Document.decode (.bytes (Text.Utf8.encode document'.toList)) = .ok t')
    (htable : t.tablename = .text name) (htable' : t'.tablename = .text name') :
    (salesOf [firstVersion name document 0, firstVersion name' document' 1]).tables =
      [.ofTable t, .ofTable t'] := by
  let r := salesOf [firstVersion name document 0, firstVersion name' document' 1]
  have hpositions : r.positions = [.table "sales" name, .table "sales" name'] := by
    show ([name, name'].eraseDups).map (Position.table "sales") ++ [] = _
    simp [List.eraseDups_cons, hother.symm]
  have hlatest : r.latestOf "sales" name = some (firstVersion name document 0) := by
    show ([firstVersion name document 0, firstVersion name' document' 1].filter
      (Registry.ofType name)).getLast? = _
    simp [Registry.ofType, firstVersion, Tables.schemaOf, hother.symm]
  have hlatest' : r.latestOf "sales" name' = some (firstVersion name' document' 1) := by
    show ([firstVersion name document 0, firstVersion name' document' 1].filter
      (Registry.ofType name')).getLast? = _
    simp [Registry.ofType, firstVersion, Tables.schemaOf, hother]
  have hentry := Registry.entryAt_table hlatest ht
  have hentry' := Registry.entryAt_table hlatest' ht'
  have hentries : r.positions.map r.entryAt = [.ofTable t, .ofTable t'].map some := by
    rw [hpositions, List.map_cons, List.map_cons, List.map_nil, hentry, hentry']
    rfl
  rw [Registry.tables, Registry.listing_of_whole hentries]
  simp [Snapshot.allTables, Entry.isNamespace, Entry.ofTable, htable, htable']

/-- The schema of the table `orders`. -/
def ordersSchema : Schema String := ⟨[⟨1, "id", false, .long⟩]⟩

/-- The creation of the table `orders` in a new namespace `sales`. -/
def ordersRun : List Operation :=
  [.change (.createNamespace (.name "sales") []),
   .change (.createTable (.parts ["sales", "orders"]) (.schema ordersSchema) .null needed)]

theorem ordersRun_leaves [Json.Nesting] :
    ∃ document s, Writes (.parts ["sales", "orders"]) (.schema ordersSchema) .null needed "orders" document ∧
      ordersRun.foldl (Operation.after c) (Server.start true) = s ∧ s.Orderly ∧
      s.registry = salesOf [firstVersion "orders" document 0] := by
  obtain ⟨document, hwrites⟩ : ∃ document,
      Writes (.parts ["sales", "orders"]) (.schema ordersSchema) .null needed "orders" document :=
    exists_writes_needed rfl rfl
  have hstart : (Server.start true).Healthy := ⟨rfl, rfl⟩
  have horderly : (ordersRun.foldl (Operation.after c) (Server.start true)).Orderly :=
    Server.Orderly.run ⟨hstart, Registry.legible_empty⟩ c ordersRun
  have hnamespace : ((Action.createNamespace (.name "sales") []).attempt c).Gives Registry.empty (.ok ())
      (salesOf []) := c.createNamespace_gives (.name "sales") [] Registry.empty
  obtain ⟨hs, hr⟩ := Operation.after_change hstart rfl hnamespace
  have hnew : [].countP (Registry.ofType "orders") = 0 := rfl
  have htable := c.createTable_salesOf hwrites hnew
  have hcreate : ((Action.createTable (.parts ["sales", "orders"]) (.schema ordersSchema) .null needed).attempt
      c).Gives (salesOf []) (.ok ()) (salesOf [firstVersion "orders" document 0]) :=
    Attempt.Gives.bind htable (.pure () _)
  have hleft := (Operation.after_change hs hr hcreate).2
  rw [ordersRun, List.foldl_cons, List.foldl_cons, List.foldl_nil] at horderly ⊢
  exact ⟨document, _, hwrites, rfl, horderly, hleft⟩

/-- Another table that is created then comes after `orders`. -/
theorem tables_after_orders [Json.Nesting] {name document : String} {schema : Schema String}
    (hschema : Schema.ofFields schema.fields = .ok schema)
    (hwrites : Writes (.parts ["sales", name]) (.schema schema) .null needed name document)
    (hother : "orders" ≠ name) :
    let s := ordersRun.foldl (Operation.after c) (Server.start true)
    let created := (c.createTable (.parts ["sales", name]) (.schema schema) .null needed).run.run Server.answer s
    created.result = .ok ⟨name, 0, 1⟩ ∧ created.state.Orderly ∧ ∃ t t',
      created.state.registry.tables = [.ofTable t, .ofTable t'] ∧
      t.database = .text "sales" ∧ t.tablename = .text "orders" ∧
      (Entry.ofTable t).schema = .ok ⟨loadedFields ordersSchema.fields⟩ ∧
      t'.database = .text "sales" ∧ t'.tablename = .text name ∧
      (Entry.ofTable t').schema = .ok ⟨loadedFields schema.fields⟩ := by
  obtain ⟨document₀, s, hwrites₀, hs, horderly, hr⟩ := c.ordersRun_leaves
  rw [hs]
  intro s created
  have hnew : [firstVersion "orders" document₀ 0].countP (Registry.ofType name) = 0 := by
    simp [firstVersion, Registry.ofType, Tables.schemaOf, hother]
  obtain ⟨hresult, -, hregistry⟩ := (c.createTable_salesOf hwrites hnew).run horderly.1 hr
  obtain ⟨t, ht, hdatabase, htablename, hloaded⟩ := exists_decode_of_writes rfl hwrites₀
  obtain ⟨t', ht', hdatabase', htablename', hloaded'⟩ := exists_decode_of_writes hschema hwrites
  have htables := tables_salesOf hother ht ht' htablename htablename'
  refine ⟨hresult, horderly.createTable c _ _ _ _, t, t', ?_, hdatabase, htablename, hloaded, hdatabase',
    htablename', hloaded'⟩
  rw [hregistry]
  exact htables

/-! ## A table that was just created -/

/-- **Loading what was just created.**  After any run of operations on an empty registry, if a table is then
created from the fields of a schema, its schema can be loaded: it is that of the first listed table that has its
two names, letter case aside.  If this is the created table itself, its fields come back, in their order, numbered
from one, optional, and with wide integers. -/
theorem tableSchema_after_createTable [Json.Nesting] (closable : Bool) (operations : List Operation)
    {i : Identifier} {schema : Schema String} {location : Value} {properties : Members} {v : Version}
    (hschema : Schema.ofFields schema.fields = .ok schema) :
    let s := operations.foldl (Operation.after c) (Server.start closable)
    let created := (c.createTable i (.schema schema) location properties).run.run Server.answer s
    let loaded := (c.tableSchema i).run.run Server.answer created.state
    created.result = .ok v →
    ∃ name first found, i.tableName = .ok name ∧
      (created.state.registry.tables.find? fun e => e.ns.isCalled i.tableNamespace && e.table.isCalled name) =
        some first ∧
      first.schema = .ok found ∧ loaded.result = .ok found ∧
      (first.ns = .text i.tableNamespace ∧ first.table = .text name → found = ⟨loadedFields schema.fields⟩) := by
  intro s created loaded hcreated
  have hstart : (Server.start closable).Orderly := ⟨⟨rfl, rfl⟩, Registry.legible_empty⟩
  obtain ⟨hs, hlegible⟩ : s.Orderly := hstart.run c operations
  -- the creation ended with a version, so all that it needs was there
  obtain ⟨cs, name, document, g, hcs, hname, hdocument, hg, hgives⟩ | ⟨f, hgives⟩ :=
    c.createTable_gives i (.schema schema) location properties s.registry
  swap
  · rw [(hgives.run hs rfl).1] at hcreated
    cases hcreated
  obtain ⟨-, hs', hr'⟩ := hgives.run hs rfl
  have hnames := named_columnsOfFields hcs
  obtain ⟨first, found, hfirst, htable, hfound, hexact⟩ := exists_first_of_addSchema hlegible hdocument hg hnames
  rw [← hr'] at hfirst
  have horderly : created.state.Orderly := ⟨hs', hr' ▸ hlegible.addSchema hdocument hg⟩
  have hloaded := c.tableSchema_of_legible horderly hname hfirst
  refine ⟨name, first, found, hname, hfirst, hfound, hloaded.trans hfound, fun hspelled => ?_⟩
  have hown := schema_of_columnsOfFields hschema hcs htable (hexact hspelled)
  rw [hfound] at hown
  exact Except.ok.inj hown

section

open Json.Usual

/-- A second table with a narrow integer comes back with a wide one. -/
theorem tableSchema_after_createTable_items :
    ∃ (c : Catalog) (operations : List Operation) (i : Identifier) (schema : Schema String)
      (properties : Members),
      Schema.ofFields schema.fields = .ok schema ∧
      let s := operations.foldl (Operation.after c) (Server.start true)
      let created := (c.createTable i (.schema schema) .null properties).run.run Server.answer s
      let loaded := (c.tableSchema i).run.run Server.answer created.state
      (∃ v, created.result = .ok v) ∧
      loaded.result = .ok ⟨[⟨1, "id", false, .long⟩, ⟨2, "note", false, .string⟩]⟩ := by
  let c : Catalog := ⟨⟨.text "localhost", 9092, .text "default"⟩⟩
  let i : Identifier := .parts ["sales", "items"]
  let schema : Schema String := ⟨[⟨7, "id", true, .int⟩, ⟨3, "note", true, .string⟩]⟩
  have hschema : Schema.ofFields schema.fields = .ok schema := rfl
  obtain ⟨document, hwrites⟩ : ∃ document, Writes i (.schema schema) .null needed "items" document :=
    exists_writes_needed rfl rfl
  obtain ⟨hcreated, -, t, t', htables, -, hfirst, -, hdatabase, htablename, -⟩ :=
    c.tables_after_orders hschema hwrites (by decide)
  obtain ⟨name, first, found, hname, hfind, -, hloaded, hexact⟩ :=
    c.tableSchema_after_createTable true ordersRun hschema hcreated
  obtain rfl : "items" = name := Except.ok.inj hname
  -- the search passes by the first table, which has another name
  have hskipped : (t.tablename.isCalled "items") = false := by rw [hfirst]; decide
  rw [htables, List.find?_cons_of_neg (by simp [Entry.ofTable, hskipped])] at hfind
  have hmeant := List.mem_singleton.mp (List.mem_of_find?_eq_some hfind)
  subst hmeant
  obtain rfl := hexact ⟨hdatabase, htablename⟩
  exact ⟨c, ordersRun, i, schema, needed, hschema, ⟨_, hcreated⟩, hloaded⟩

/-- What is loaded is not always what was just created: behind `orders`, the table `Orders` is not found. -/
theorem not_always_loaded_back :
    ¬∀ (c : Catalog) (closable : Bool) (operations : List Operation) (i : Identifier) (schema : Schema String)
      (location : Value) (properties : Members) (v : Version),
      Schema.ofFields schema.fields = .ok schema → (∀ f ∈ schema.fields, f.type ∈ FieldType.simple) →
      let s := operations.foldl (Operation.after c) (Server.start closable)
      let created := (c.createTable i (.schema schema) location properties).run.run Server.answer s
      let loaded := (c.tableSchema i).run.run Server.answer created.state
      created.result = .ok v → loaded.result = .ok ⟨loadedFields schema.fields⟩ := by
  intro hback
  let c : Catalog := ⟨⟨.text "localhost", 9092, .text "default"⟩⟩
  let i : Identifier := .parts ["sales", "Orders"]
  let schema : Schema String := ⟨[⟨1, "note", false, .string⟩]⟩
  have hschema : Schema.ofFields schema.fields = .ok schema := rfl
  obtain ⟨document, hwrites⟩ : ∃ document, Writes i (.schema schema) .null needed "Orders" document :=
    exists_writes_needed rfl rfl
  obtain ⟨hcreated, horderly, t, t', htables, hdatabase, htablename, hfirst, -⟩ :=
    c.tables_after_orders hschema hwrites (by decide)
  have hsimple : ∀ f ∈ schema.fields, f.type ∈ FieldType.simple := by
    intro f hf
    obtain rfl := List.mem_singleton.mp hf
    simp [FieldType.simple]
  have hloaded := hback c true ordersRun i schema .null needed _ hschema hsimple hcreated
  -- the name of the first table is that of the second, letter case aside
  have hmeant : (t.database.isCalled "sales" && t.tablename.isCalled "Orders") = true := by
    rw [hdatabase, htablename]
    decide
  have hfind : ([Entry.ofTable t, .ofTable t'].find? fun e => e.ns.isCalled "sales" && e.table.isCalled "Orders") =
      some (.ofTable t) := List.find?_cons_of_pos hmeant
  rw [← htables] at hfind
  have hother := c.tableSchema_of_legible (i := i) horderly rfl hfind
  rw [hloaded, hfirst] at hother
  simp [schema, ordersSchema, loadedFields, numbered] at hother

end

end Catalog

end SchemaCatalog
