/-
  The catalog as an ordered ledger.

  A ledger knows nothing of registries, documents or sessions.  It is a list of shelves in the order in
  which namespaces were added, each with the versions of its tables in the order in which they were made.
  An operation of the catalog does to a ledger what its caller expects:

    - a namespace is added at the end unless it is there, and removed with all that it holds;
    - a table adds a version to the shelf of exactly its namespace, if something can be stored of it;
    - dropping a table removes the versions of every table with its name, letter case aside.

  `Reflects` ties a ledger to a registry.  Both are compared by their contents: the names of groups and
  types, and what is read from the documents.  What is to be listed of a registry then is what its ledger
  lists.
-/
import SchemaCatalog.Catalog
import SchemaCatalog.Proofs.Document.RoundTrip
import SchemaCatalog.Proofs.Snapshot.Positions

namespace SchemaCatalog

/-! ## Operations -/

/-- An operation that changes the catalog. -/
inductive Action where
  | createNamespace (ns : Identifier) (properties : Members)
  | dropNamespace (ns : Identifier)
  | createTable (i : Identifier) (columns : Catalog.TableColumns) (location : Value) (properties : Members)
  | dropTable (i : Identifier)

/-- All columns have texts as names. -/
def Catalog.TableColumns.Named : Catalog.TableColumns → Prop
  | .columns cs => ∀ c ∈ cs, ∃ n, c.name = .text n
  | .schema _ => True

namespace Action

/-- What a new table is described by is plain: the names of its columns and properties are texts, and its
location and the values of its properties can be written and read back. -/
def IsPlain [Json.Nesting] : Action → Prop
  | .createTable _ columns location properties =>
    columns.Named ∧ location.IsWritable ∧ ∀ p ∈ properties, (∃ k, p.1 = .text k) ∧ p.2.IsWritable
  | _ => True

/-- The operation as the catalog attempts it. -/
def attempt [Json.Nesting] (c : Catalog) : Action → Attempt Unit
  | .createNamespace ns properties => c.createNamespace ns properties
  | .dropNamespace ns => c.dropNamespace ns
  | .createTable i columns location properties => do
    let _ ← c.createTable i columns location properties
    return ()
  | .dropTable i => c.dropTable i

/-- The server after an operation, whether or not that fails. -/
def after [Json.Nesting] (c : Catalog) (s : Server) (a : Action) : Server :=
  ((a.attempt c).run.run Server.answer s).state

end Action

/-! ## Ledgers -/

/-- A namespace with the versions of its tables, each under the name of its table, the oldest first. -/
structure Shelf where
  name : String
  versions : List (String × StoredTable)

/-- The namespaces in the order in which they were added. -/
abbrev Ledger := List Shelf

/-- What is listed of a shelf: the namespace alone if it holds no version, otherwise every table by its
latest version, in the order of their oldest. -/
def Shelf.entries (s : Shelf) : List Entry :=
  if s.versions.isEmpty then [Entry.ofNamespace s.name]
  else (latest s.versions).map fun v => ⟨.text s.name, .text v.1, v.2.columns, v.2.options⟩

namespace Ledger

/-- Changes the versions on the shelf with a name. -/
def update (l : Ledger) (name : String)
    (f : List (String × StoredTable) → List (String × StoredTable)) : Ledger :=
  l.map fun s => if s.name == name then { s with versions := f s.versions } else s

/-- What an operation does to a ledger. -/
def step (l : Ledger) : Action → Ledger
  | .createNamespace ns _ => if l.any fun s => s.name == ns.toText then l else l ++ [⟨ns.toText, []⟩]
  | .dropNamespace ns => l.filter fun s => !(s.name == ns.toText)
  | .createTable i columns location properties =>
    match i.tableName, columns.toColumns with
    | .ok name, .ok cs =>
      match Table.stored?
          ⟨.text i.tableNamespace, .text name, cs, Catalog.withLocation location properties⟩ with
      | some t => l.update i.tableNamespace fun vs => vs ++ [(name, t)]
      | none => l
    | _, _ => l
  | .dropTable i =>
    match i.tableName with
    | .ok name => l.update i.tableNamespace fun vs => vs.filter fun v => !Text.sameName v.1 name
    | .error _ => l

/-- What is listed of a ledger. -/
def entries (l : Ledger) : List Entry := l.flatMap Shelf.entries

end Ledger

/-! ## Contents -/

/-- Names with what was read under them. -/
abbrev Contents := String × List (String × Except Unreadable StoredTable)

/-- A stored schema by its type and what is read from its document. -/
def StoredSchema.content [Json.Nesting] (s : StoredSchema) : String × Except Unreadable StoredTable :=
  (s.info.type, Document.decode s.info.data)

def Group.contents [Json.Nesting] (g : Group) : Contents := (g.name, g.schemas.map StoredSchema.content)

def Shelf.contents (s : Shelf) : Contents := (s.name, s.versions.map fun v => (v.1, .ok v.2))

/-- The entries that contents are worth, with nothing for what could not be read. -/
def Contents.worth (c : Contents) : List (Option Entry) :=
  if c.2.isEmpty then [some (Entry.ofNamespace c.1)]
  else (c.2.map Prod.fst).eraseDups.map fun n =>
    (lastUnder n c.2).bind fun x => x.toOption.map Entry.ofTable

/-- The latest version of a type is the last of its name among the contents. -/
theorem lastUnder_content [Json.Nesting] (g : Group) (type : String) :
    lastUnder type (g.schemas.map StoredSchema.content) =
      (Registry.latest? g type).map fun s => Document.decode s.info.data := by
  unfold lastUnder Registry.latest?
  rw [List.filter_map, List.getLast?_map, Option.map_map]
  rfl

/-- The positions of a group are worth its contents. -/
theorem worth_group [Json.Nesting] {r : Registry} (hr : r.Sound) {g : Group} (hg : g ∈ r.groups) :
    (positionsIn g.name (r.schemasOf g.name)).map r.entryAt = g.contents.worth := by
  have hfound := Registry.group?_of_mem hr.distinct hg
  rw [Registry.schemasOf_of_some hfound, positionsIn, Contents.worth, Group.contents]
  simp only [List.isEmpty_map]
  split
  · rfl
  · have hnames : (g.schemas.map StoredSchema.content).map Prod.fst = g.schemas.map fun s => s.info.type := by
      rw [List.map_map]
      rfl
    rw [hnames, List.map_map]
    refine List.map_congr_left fun type _ => ?_
    rw [lastUnder_content, Function.comp_apply, Registry.entryAt, Registry.latestOf, hfound,
      Option.bind_some, Option.bind_map]
    rfl

/-- The contents of a shelf are worth what is listed of it, if its tables are under their own names. -/
theorem worth_shelf {s : Shelf}
    (hs : ∀ v ∈ s.versions, v.2.database = .text s.name ∧ v.2.tablename = .text v.1) :
    s.contents.worth = s.entries.map some := by
  rw [Contents.worth, Shelf.contents, Shelf.entries]
  simp only [List.isEmpty_map]
  split
  · rfl
  · have hnames : (s.versions.map fun v => (v.1, (Except.ok v.2 : Except Unreadable StoredTable))).map Prod.fst =
        s.versions.map Prod.fst := by
      rw [List.map_map]
      rfl
    rw [hnames, ← map_fst_latest, List.map_map, List.map_map]
    -- each name is listed with its last version, which is read under the names of the shelf
    refine List.map_congr_left fun v hv => ?_
    have hlast := mem_latest.mp hv
    obtain ⟨hdatabase, htablename⟩ := hs v (lastUnder_mem hlast)
    simp only [Function.comp_apply, lastUnder_map, hlast, Option.map_some, Option.bind_some,
      Except.toOption, Entry.ofTable, hdatabase, htablename]

/-! ## Ledgers and registries -/

/-- A ledger reflects a registry: they have the same contents, all of which can be read and is under its
own names. -/
structure Reflects [Json.Nesting] (l : Ledger) (r : Registry) : Prop where
  sound : r.Sound
  contents : r.groups.map Group.contents = l.map Shelf.contents
  named : ∀ s ∈ l, ∀ v ∈ s.versions, v.2.database = .text s.name ∧ v.2.tablename = .text v.1

/-- The positions of a registry are worth what its ledger lists. -/
theorem Reflects.worth [Json.Nesting] {l : Ledger} {r : Registry} (h : Reflects l r) :
    r.positions.map r.entryAt = l.entries.map some := by
  have hgroups : r.positions.map r.entryAt = (r.groups.map Group.contents).flatMap Contents.worth := by
    rw [Registry.positions, List.map_flatMap, List.flatMap_map]
    exact List.flatMap_congr fun g hg => worth_group h.sound hg
  have hshelves : l.entries.map some = (l.map Shelf.contents).flatMap Contents.worth := by
    rw [Ledger.entries, List.map_flatMap, List.flatMap_map]
    exact List.flatMap_congr fun s hs => (worth_shelf (h.named s hs)).symm
  rw [hgroups, hshelves, h.contents]

end SchemaCatalog
