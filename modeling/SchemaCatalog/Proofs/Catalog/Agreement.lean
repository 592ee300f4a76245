/-
  Whether the reads of a catalog agree.

  Three reads tell of tables.  The tables of a namespace are listed over all groups that have its name, letter
  case aside.  A table is looked for in the first of these groups alone.  Its schema is loaded from the listing
  again.  After any run of operations on an empty registry

    - a table that is found can be loaded: its type is listed, and every listed table has a schema
      (`tableSchema_of_hasTable`);
    - a table that is listed is found if and only if the first group with the name of its namespace holds a
      version of it; so all of them are found where no two groups differ in letter case alone
      (`hasTable_of_listTables`).

  What both rest on is that everything is listed of a legible registry, under the names of its groups and types
  (`Legible.exists_listed`, `Legible.exists_names`).
-/
import SchemaCatalog.Proofs.Catalog.Loading
import SchemaCatalog.Proofs.Catalog.Spelling

namespace SchemaCatalog

variable {r : Registry}

/-! ## The identifier of a listed table -/

namespace Identifier

/-- A table in a namespace, by the parts of the namespace and its name. -/
def table (ns : Identifier) (name : String) : Identifier := .parts (ns.toParts ++ [name])

@[simp] theorem tableNamespace_table (ns : Identifier) (name : String) :
    (ns.table name).tableNamespace = ns.toText := by
  rw [tableNamespace, table, toParts, List.dropLast_concat, joinDots_toParts]

@[simp] theorem tableName_table (ns : Identifier) (name : String) : (ns.table name).tableName = .ok name := by
  rw [tableName, table, toParts, List.getLast?_concat]

end Identifier

/-! ## What is found in a legible registry -/

namespace Registry

/-- The group that a namespace means holds a version of a table. -/
theorem holds_eq_true {ns name : String} :
    r.holds ns name = true ↔ ∃ g, r.meant? ns = some g ∧
      ∃ v ∈ g.schemas, Text.sameName v.info.type name = true := by
  rw [holds, Option.any_eq_true]
  exact exists_congr fun g => and_congr_right fun _ => List.any_eq_true

/-- What a name means has the name, letter case aside. -/
theorem sameName_of_meant? {ns : String} {g : Group} (h : r.meant? ns = some g) :
    g ∈ r.groups ∧ Text.sameName g.name ns = true :=
  ⟨List.mem_of_find?_eq_some h, List.find?_some (p := fun g : Group => Text.sameName g.name ns) h⟩

/-- A table that is found is among those listed. -/
theorem Legible.exists_called [Json.Nesting] (h : r.Legible) {ns name : String} (hholds : r.holds ns name = true) :
    ∃ first, (r.tables.find? fun e => e.ns.isCalled ns && e.table.isCalled name) = some first := by
  obtain ⟨g, hmeant, v, hv, hname⟩ := holds_eq_true.mp hholds
  obtain ⟨e, he, hns, htable⟩ := h.exists_listed (group?_of_meant? hmeant) hv
  refine Option.isSome_iff_exists.mp (List.find?_isSome.mpr ⟨e, he, ?_⟩)
  rw [hns, htable, Value.isCalled_text, Value.isCalled_text, (sameName_of_meant? hmeant).2, hname, Bool.and_self]

/-- A listed table of a namespace lies in a group with its name; it is found if that group is meant. -/
theorem Legible.exists_of_isCalled [Json.Nesting] (h : r.Legible) {ns : String} {e : Entry} (he : e ∈ r.tables)
    (hns : e.ns.isCalled ns = true) :
    ∃ g name, r.group? g.name = some g ∧ Text.sameName g.name ns = true ∧ e.table = .text name ∧
      (∃ v ∈ g.schemas, v.info.type = name) ∧ (r.meant? ns = some g → r.holds ns name = true) := by
  obtain ⟨g, v, hg, hv, hgroup, htype⟩ := h.exists_names he
  rw [hgroup, Value.isCalled_text] at hns
  refine ⟨g, v.info.type, hg, hns, htype, ⟨v, hv, rfl⟩, fun hmeant => ?_⟩
  exact holds_eq_true.mpr ⟨g, hmeant, v, hv, Text.sameName_self _⟩

/-- A group is meant by a name if no other group has that name, letter case aside. -/
theorem meant?_of_unique {ns : String} {g : Group} (hg : r.group? g.name = some g)
    (hsame : Text.sameName g.name ns = true)
    (hunique : ∀ g' ∈ r.groups, Text.sameName g'.name ns = true → g'.name = g.name) : r.meant? ns = some g := by
  have hsome : (r.meant? ns).isSome = true := List.find?_isSome.mpr ⟨g, List.mem_of_find?_eq_some hg, hsame⟩
  obtain ⟨g', hmeant⟩ := Option.isSome_iff_exists.mp hsome
  obtain ⟨hg', hsame'⟩ := sameName_of_meant? hmeant
  have hfirst := group?_of_meant? hmeant
  rw [hunique g' hg' hsame', hg] at hfirst
  exact hmeant.trans hfirst.symm

end Registry

namespace Catalog

variable (c : Catalog)

/-! ## What is found and what is loaded -/

/-- **A table that is found can be loaded.**  After any run of operations on an empty registry, if a table is
found under an identifier, then loading its schema under this identifier gives one: that of the first listed
table that has the two names, letter case aside. -/
theorem tableSchema_of_hasTable [Json.Nesting] (closable : Bool) (operations : List Operation) (i : Identifier) :
    let s := operations.foldl (Operation.after c) (Server.start closable)
    let looked := (c.hasTable i).run.run Server.answer s
    let loaded := (c.tableSchema i).run.run Server.answer looked.state
    looked.result = .ok true →
    ∃ name first schema, i.tableName = .ok name ∧
      (s.registry.tables.find? fun e => e.ns.isCalled i.tableNamespace && e.table.isCalled name) = some first ∧
      first.schema = .ok schema ∧ loaded.result = .ok schema := by
  intro s looked loaded hlooked
  have hstart : (Server.start closable).Orderly := ⟨⟨rfl, rfl⟩, Registry.legible_empty⟩
  obtain ⟨hs, hlegible⟩ : s.Orderly := hstart.run c operations
  cases hname : i.tableName with
  | error f =>
    -- an identifier without components is looked for in vain
    have hnameless : (c.hasTable i).Gives s.registry (.error f) s.registry :=
      Attempt.Gives.bind_error (.lift hname s.registry)
    have hresult : looked.result = .error f := (hnameless.run hs rfl).1
    cases hlooked.symm.trans hresult
  | ok name =>
    obtain ⟨hresult, hs', hr'⟩ := (c.hasTable_gives hname s.registry).run hs rfl
    have hholds : s.registry.holds i.tableNamespace name = true := Except.ok.inj (hresult.symm.trans hlooked)
    obtain ⟨first, hfirst⟩ := hlegible.exists_called hholds
    obtain ⟨schema, hschema⟩ := Registry.exists_schema_of_mem_tables (List.mem_of_find?_eq_some hfirst)
    have horderly : looked.state.Orderly := ⟨hs', hr' ▸ hlegible⟩
    have hloaded := c.tableSchema_of_legible horderly hname (hr' ▸ hfirst)
    exact ⟨name, first, schema, rfl, hfirst, hschema, hloaded.trans hschema⟩

/-- What the table `orders` is read as, after its creation. -/
theorem schema_of_mem_orders [Json.Nesting] {document : String} {e : Entry}
    (hwrites : Writes (.parts ["sales", "orders"]) (.schema ordersSchema) .null needed "orders" document)
    (hlegible : (salesOf [firstVersion "orders" document 0]).Legible)
    (he : e ∈ (salesOf [firstVersion "orders" document 0]).tables) :
    e.schema = .ok ⟨loadedFields ordersSchema.fields⟩ := by
  obtain ⟨group, type, v, t, hlatest, ht, -, -, rfl⟩ := hlegible.mem_tables.mp he
  obtain ⟨g, hg, hv, -⟩ := Registry.latestOf_eq_some hlatest
  obtain rfl := List.mem_singleton.mp (Registry.mem_of_group? hg)
  obtain rfl := List.mem_singleton.mp hv
  obtain ⟨t', ht', -, -, hschema⟩ := exists_decode_of_writes rfl hwrites
  obtain rfl : t = t' := Except.ok.inj (ht.symm.trans ht')
  exact hschema

section

open Json.Usual

/-- The table `orders` of the namespace `sales` is found and loaded in capital letters. -/
theorem tableSchema_of_hasTable_orders :
    ∃ (c : Catalog) (i : Identifier),
      let s := ordersRun.foldl (Operation.after c) (Server.start true)
      let looked := (c.hasTable i).run.run Server.answer s
      let loaded := (c.tableSchema i).run.run Server.answer looked.state
      i.toParts = ["SALES", "ORDERS"] ∧ looked.result = .ok true ∧
        loaded.result = .ok ⟨[⟨1, "id", false, .long⟩]⟩ := by
  let c : Catalog := ⟨⟨.text "localhost", 9092, .text "default"⟩⟩
  let i : Identifier := .parts ["SALES", "ORDERS"]
  obtain ⟨document, s, hwrites, hs, horderly, hr⟩ := c.ordersRun_leaves
  have hname : i.tableName = .ok "ORDERS" := rfl
  have hsales : Text.sameName "sales" i.tableNamespace = true := by decide
  have horders : Text.sameName "orders" "ORDERS" = true := by decide
  have hholds : s.registry.holds i.tableNamespace "ORDERS" = true := by
    rw [hr]
    exact Registry.holds_eq_true.mpr ⟨_, List.find?_cons_of_pos hsales, _, List.mem_singleton_self _, horders⟩
  have hlooked := ((c.hasTable_gives hname s.registry).run horderly.1 rfl).1
  rw [hholds, ← hs] at hlooked
  obtain ⟨name, first, schema, -, hfirst, hschema, hloaded⟩ := c.tableSchema_of_hasTable true ordersRun i hlooked
  have hmem := List.mem_of_find?_eq_some hfirst
  rw [hs, hr] at hmem
  rw [schema_of_mem_orders hwrites (hr ▸ horderly.2) hmem] at hschema
  obtain rfl := Except.ok.inj hschema
  exact ⟨c, i, rfl, hlooked, hloaded⟩

end

/-! ## What is listed and what is found -/

/-- What is listed of a server with a legible registry, which stays as it is. -/
theorem listTables_of_legible [Json.Nesting] {s : Server} (hs : s.Orderly) (ns : Identifier) :
    let listed := (c.listTables ns).run.run Server.answer s
    let called := s.registry.tables.filter fun e => e.ns.isCalled ns.toText
    listed.result = (if isThere s.registry ns.toText then .ok (called.map fun e => (ns.toParts, e.table))
      else .error (.noNamespace ns.toText)) ∧ listed.state.Healthy ∧ listed.state.registry = s.registry := by
  intro listed called
  have hlisted := (c.listTables_gives ns s.registry).run hs.1 rfl
  rwa [hs.2.listed, Except.bind, tables_of_legible hs.2] at hlisted

/-- **A listed table is found where its group is meant.**  After any run of operations on an empty registry, if
the tables of a namespace are listed, each of them lies in a group that has the name of the namespace, letter case
aside.  It is looked for in the first of these groups: it is found if and only if that one holds a version of a
table with its name, and so it is if no other group has the name of the namespace. -/
theorem hasTable_of_listTables [Json.Nesting] (closable : Bool) (operations : List Operation) (ns : Identifier)
    (tables : List (List String × Value)) :
    let s := operations.foldl (Operation.after c) (Server.start closable)
    let listed := (c.listTables ns).run.run Server.answer s
    let r := s.registry
    listed.result = .ok tables →
    ∀ t ∈ tables, ∃ g name, g ∈ r.groups ∧ Text.sameName g.name ns.toText = true ∧
      t = (ns.toParts, .text name) ∧ (∃ v ∈ g.schemas, v.info.type = name) ∧
      ∃ found, ((c.hasTable (ns.table name)).run.run Server.answer listed.state).result = .ok found ∧
        (found = true ↔ ∃ g', r.meant? ns.toText = some g' ∧
          ∃ v ∈ g'.schemas, Text.sameName v.info.type name = true) ∧
        ((∀ g' ∈ r.groups, Text.sameName g'.name ns.toText = true → g'.name = g.name) → found = true) := by
  intro s listed r hlisted t ht
  have hstart : (Server.start closable).Orderly := ⟨⟨rfl, rfl⟩, Registry.legible_empty⟩
  have hs : s.Orderly := hstart.run c operations
  obtain ⟨hresult, hs', hr'⟩ := c.listTables_of_legible hs ns
  cases hthere : isThere r ns.toText with
  | false =>
    rw [hthere] at hresult
    cases hlisted.symm.trans hresult
  | true =>
    rw [hthere, if_pos rfl] at hresult
    obtain rfl := Except.ok.inj (hlisted.symm.trans hresult)
    obtain ⟨e, he, rfl⟩ := List.mem_map.mp ht
    obtain ⟨he, hns⟩ := List.mem_filter.mp he
    obtain ⟨g, name, hg, hsame, htable, hv, hfound⟩ := hs.2.exists_of_isCalled he hns
    have hlooked := ((c.hasTable_gives (ns.tableName_table name) r).run hs' hr').1
    rw [Identifier.tableNamespace_table] at hlooked
    refine ⟨g, name, Registry.mem_of_group? hg, hsame, by rw [htable], hv, _, hlooked, Registry.holds_eq_true, ?_⟩
    intro hunique
    exact hfound (Registry.meant?_of_unique hg hsame hunique)

/-- A table is listed under a namespace that has the name of its group, letter case aside. -/
theorem mem_listTables [Json.Nesting] {s : Server} (hs : s.Orderly) {g : Group}
    (hg : s.registry.group? g.name = some g)
    {v : StoredSchema} (hv : v ∈ g.schemas) {ns : Identifier} (hsame : Text.sameName g.name ns.toText = true) :
    ∃ tables, ((c.listTables ns).run.run Server.answer s).result = .ok tables ∧
      (ns.toParts, .text v.info.type) ∈ tables := by
  obtain ⟨hresult, -, -⟩ := c.listTables_of_legible hs ns
  have hthere : isThere s.registry ns.toText = true :=
    List.any_eq_true.mpr ⟨g.name, List.mem_map_of_mem (Registry.mem_of_group? hg), hsame⟩
  rw [if_pos hthere] at hresult
  obtain ⟨e, he, hns, htable⟩ := hs.2.exists_listed hg hv
  refine ⟨_, hresult, List.mem_map.mpr ⟨e, List.mem_filter.mpr ⟨he, ?_⟩, by rw [htable]⟩⟩
  rw [hns, Value.isCalled_text, hsame]

section

open Json.Usual

/-- The table `orders` is listed in the namespace `SALES` and found there: no other group has this name. -/
theorem hasTable_of_listTables_orders :
    ∃ (c : Catalog) (ns : Identifier) (tables : List (List String × Value)),
      let s := ordersRun.foldl (Operation.after c) (Server.start true)
      let listed := (c.listTables ns).run.run Server.answer s
      ns.toText = "SALES" ∧ listed.result = .ok tables ∧ (["SALES"], .text "orders") ∈ tables ∧
        ∀ t ∈ tables, ∃ name, t = (["SALES"], .text name) ∧
          ((c.hasTable (ns.table name)).run.run Server.answer listed.state).result = .ok true := by
  let c : Catalog := ⟨⟨.text "localhost", 9092, .text "default"⟩⟩
  let ns : Identifier := .name "SALES"
  obtain ⟨document, s, -, hs, horderly, hr⟩ := c.ordersRun_leaves
  let g : Group := ⟨"sales", .ofOwner (.text ""), [firstVersion "orders" document 0]⟩
  have hg : s.registry.group? g.name = some g := by
    rw [hr]
    rfl
  have hsame : Text.sameName "sales" ns.toText = true := by decide
  obtain ⟨tables, hlisted, hmem⟩ := c.mem_listTables (g := g) horderly hg (List.mem_singleton_self _) hsame
  rw [← hs] at hlisted
  refine ⟨c, ns, tables, rfl, hlisted, hmem, fun t ht => ?_⟩
  obtain ⟨g, name, hg, -, ht, -, found, hlooked, -, hfound⟩ :=
    c.hasTable_of_listTables true ordersRun ns tables hlisted t ht
  rw [hs, hr] at hg hfound
  obtain rfl := List.mem_singleton.mp hg
  rw [hfound fun g' hg' _ => congrArg Group.name (List.mem_singleton.mp hg')] at hlooked
  exact ⟨name, ht, hlooked⟩

end

/-- Two namespaces whose names differ in letter case alone, and a table in the second. -/
def twinsRun : List Operation :=
  [.change (.createNamespace (.name "sales") []), .change (.createNamespace (.name "SALES") []),
   .change (.createTable (.parts ["SALES", "orders"]) (.schema ordersSchema) .null needed)]

theorem twinsRun_leaves [Json.Nesting] :
    ∃ document s, twinsRun.foldl (Operation.after c) (Server.start true) = s ∧ s.Orderly ∧ s.registry =
      ⟨[⟨"sales", .ofOwner (.text ""), []⟩,
        ⟨"SALES", .ofOwner (.text ""), [firstVersion "orders" document 0]⟩], 1⟩ := by
  obtain ⟨document, cs, hcs, hname, hdocument⟩ : ∃ document,
      Writes (.parts ["SALES", "orders"]) (.schema ordersSchema) .null needed "orders" document :=
    exists_writes_needed rfl rfl
  have hstart : (Server.start true).Healthy := ⟨rfl, rfl⟩
  have horderly : (twinsRun.foldl (Operation.after c) (Server.start true)).Orderly :=
    Server.Orderly.run ⟨hstart, Registry.legible_empty⟩ c twinsRun
  let first : Group := ⟨"sales", .ofOwner (.text ""), []⟩
  let second : Group := ⟨"SALES", .ofOwner (.text ""), []⟩
  have hfirst : ((Action.createNamespace (.name "sales") []).attempt c).Gives Registry.empty (.ok ())
      ⟨[first], 0⟩ := c.createNamespace_gives (.name "sales") [] Registry.empty
  obtain ⟨hs, hr⟩ := Operation.after_change hstart rfl hfirst
  have hsecond : ((Action.createNamespace (.name "SALES") []).attempt c).Gives ⟨[first], 0⟩ (.ok ())
      ⟨[first, second], 0⟩ := c.createNamespace_gives (.name "SALES") [] ⟨[first], 0⟩
  obtain ⟨hs, hr⟩ := Operation.after_change hs hr hsecond
  have hg : Registry.group? ⟨[first, second], 0⟩ "SALES" = some second := rfl
  have hcreate := c.createTable_stored hcs hname hdocument hg
  have htable : ((Action.createTable (.parts ["SALES", "orders"]) (.schema ordersSchema) .null needed).attempt
      c).Gives ⟨[first, second], 0⟩ (.ok ()) _ := Attempt.Gives.bind hcreate (.pure () _)
  have hleft := (Operation.after_change hs hr htable).2
  rw [twinsRun, List.foldl_cons, List.foldl_cons, List.foldl_cons, List.foldl_nil] at horderly ⊢
  exact ⟨document, _, rfl, horderly, hleft⟩

section

open Json.Usual

/-- Not every listed table is found: the table of `SALES` is listed under `sales`, too, but looked for in the
first of the two groups. -/
theorem not_all_listed_found :
    ¬∀ (c : Catalog) (closable : Bool) (operations : List Operation) (ns : Identifier)
      (tables : List (List String × Value)),
      let s := operations.foldl (Operation.after c) (Server.start closable)
      let listed := (c.listTables ns).run.run Server.answer s
      listed.result = .ok tables →
      ∀ t ∈ tables, ∃ name, t = (ns.toParts, .text name) ∧
        ((c.hasTable (ns.table name)).run.run Server.answer listed.state).result = .ok true := by
  intro hall
  let c : Catalog := ⟨⟨.text "localhost", 9092, .text "default"⟩⟩
  let ns : Identifier := .name "sales"
  obtain ⟨document, s, hs, horderly, hr⟩ := c.twinsRun_leaves
  let g : Group := ⟨"SALES", .ofOwner (.text ""), [firstVersion "orders" document 0]⟩
  have hg : s.registry.group? g.name = some g := by
    rw [hr]
    rfl
  have hsame : Text.sameName "SALES" ns.toText = true := by decide
  obtain ⟨tables, hlisted, hmem⟩ := c.mem_listTables (g := g) horderly hg (List.mem_singleton_self _) hsame
  rw [← hs] at hlisted
  obtain ⟨name, -, hfound⟩ := hall c true twinsRun ns tables hlisted _ hmem
  rw [hs] at hfound
  obtain ⟨-, hs', hr'⟩ := c.listTables_of_legible horderly ns
  have hlooked := ((c.hasTable_gives (ns.tableName_table name) _).run hs' rfl).1
  -- the group that is meant holds nothing
  have hmeant : Registry.meant? ((c.listTables ns).run.run Server.answer s).state.registry ns.toText =
      some ⟨"sales", .ofOwner (.text ""), []⟩ := by
    rw [hr', hr]
    exact List.find?_cons_of_pos (Text.sameName_self "sales")
  rw [Identifier.tableNamespace_table, Registry.holds, hmeant, hfound] at hlooked
  cases hlooked

end

end Catalog

end SchemaCatalog
