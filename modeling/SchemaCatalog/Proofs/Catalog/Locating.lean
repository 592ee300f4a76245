/-
  Where a new table lies.

  A location can be given to a creation in two ways: apart from the properties, or as one of them.  The first is
  written over the second: it takes the place of the property with exactly the name `external_location`, or goes
  to the end if there is none (`exists_put_eq`).  But properties are read in small letters, and of several the
  last one counts.  So the location that was given apart decides if and only if no property behind its place has
  the name in another spelling (`effective?_put`); otherwise the last of these does.

  What is read back is told by the sources of the stored document.  They are those of the location in effect
  (`createTable_sources`), whatever else fails: a creation that succeeds has stored its document.
-/
import SchemaCatalog.Proofs.Document.Written
import SchemaCatalog.Proofs.Catalog.Loading

namespace SchemaCatalog

/-! ## A property written over -/

namespace Members

/-- The members behind the first one with a name. -/
def behind (k : String) : Members → Members
  | [] => []
  | m :: ms => if (Value.text k).same m.1 then ms else behind k ms

/-- What is written under a name stands where the name first stood, or at the end. -/
theorem exists_put_eq {ms : Members} (h : ∀ m ∈ ms, ∃ n, m.1 = .text n) (k : String) (v : Value) :
    ∃ before, ms.put (.text k) v = before ++ (.text k, v) :: ms.behind k := by
  induction ms with
  | nil => exact ⟨[], rfl⟩
  | cons m ms ih =>
    obtain ⟨key, w⟩ := m
    obtain ⟨⟨n, hn⟩, hms⟩ := List.forall_mem_cons.mp h
    obtain rfl : key = .text n := hn
    rw [put, behind, Value.same_text]
    by_cases hk : k = n
    · refine ⟨[], ?_⟩
      rw [hk, beq_self_eq_true, if_pos rfl, if_pos rfl, List.nil_append]
    · obtain ⟨before, hput⟩ := ih hms
      refine ⟨(.text n, w) :: before, ?_⟩
      rw [beq_eq_false_iff_ne.mpr hk, if_neg Bool.false_ne_true, if_neg Bool.false_ne_true, hput, List.cons_append]

/-- Writing under a text keeps texts as names. -/
theorem names_put {ms : Members} (h : ∀ m ∈ ms, ∃ n, m.1 = .text n) (k : String) (v : Value) :
    ∀ m ∈ ms.put (.text k) v, ∃ n, m.1 = .text n := by
  intro m hm
  rcases mem_put hm with hm | ⟨-, hkey | ⟨q, hq, hkey⟩⟩
  · exact h m hm
  · exact ⟨k, hkey⟩
  · rw [hkey]
    exact h q hq

end Members

namespace Options

/-- A property that is written over is in effect, unless one behind it has its name in small letters. -/
theorem effective?_put {properties : Members} (h : ∀ p ∈ properties, ∃ k, p.1 = .text k) {name : String}
    (hname : name ∈ names) (v : Value) :
    effective? name (properties.put (.text name) v) =
      some ((effective? name (properties.behind name)).getD (spelled v)) := by
  obtain ⟨before, hput⟩ := Members.exists_put_eq h name v
  have hlowered : lowered (before ++ (.text name, v) :: properties.behind name) =
      (lowered before ++ [(name, spelled v)]) ++ lowered (properties.behind name) := by
    rw [lowered, List.filterMap_append, List.append_assoc]
    show _ ++ (Text.lower name, spelled v) :: lowered (properties.behind name) = _
    rw [lower_of_mem_names hname]
    rfl
  rw [effective?, hput, hlowered, lastUnder_append_list, lastUnder_append, if_pos rfl]
  show Option.or (effective? name (properties.behind name)) (some (spelled v)) = _
  cases effective? name (properties.behind name) with
  | none => rfl
  | some w => rfl

end Options

/-- A location is no boolean, so spelling one out does not make it a location. -/
theorem Location.ofValue_of_spelled {v : Value} {place : Location}
    (h : Location.ofValue (Options.spelled v) = .ok place) : Location.ofValue v = .ok place := by
  cases v with
  | bool b =>
    have hno : ∀ b : Bool, Location.split? (if b then "true" else "false").toList = none := by decide
    rw [Options.spelled, Location.ofValue, Uri.textOf?, Option.bind_some, hno b] at h
    cases h
  | _ => exact h

namespace Catalog

variable (c : Catalog) {i : Identifier} {columns : TableColumns} {location : Value} {properties : Members}

/-! ## The location in effect -/

/-- The value that says where a table lies, of which a location is given apart from its properties. -/
def placeOf (location : Value) (properties : Members) : Value :=
  (Options.effective? "external_location" (properties.behind "external_location")).getD location

/-- A document that is written with a location given apart is read with the sources of the location in effect. -/
theorem exists_sources_of_writes [Json.Nesting] (hkeys : ∀ p ∈ properties, ∃ k, p.1 = .text k)
    (hlocation : location ≠ .null) {name document : String}
    (hwrites : Writes i columns location properties name document) :
    ∃ t bucket path, Document.decode (.bytes (Text.Utf8.encode document.toList)) = .ok t ∧
      t.options.find? "sources" = some (Document.sourcesAt bucket path) ∧
      Location.ofValue (placeOf location properties) = .ok ⟨.text bucket, .text path⟩ := by
  obtain ⟨cs, -, -, hdocument⟩ := hwrites
  have hwith : withLocation location properties = properties.put (.text "external_location") location := by
    unfold withLocation
    split
    · exact absurd rfl hlocation
    · rfl
  rw [hwith] at hdocument
  obtain ⟨t, ht, -, -, -, options, v, bucket, path, hoptions, hfound, hplace, hsources⟩ :=
    Document.exists_decode_of_encodeTable hdocument
  have hname : "external_location" ∈ Options.names := by decide
  rw [Options.find?_normalize (Members.names_put hkeys _ location) hoptions hname,
    Options.effective?_put hkeys hname] at hfound
  refine ⟨t, bucket, path, ht, hsources, ?_⟩
  rw [placeOf]
  cases heffective : Options.effective? "external_location" (properties.behind "external_location") with
  | none =>
    rw [heffective] at hfound
    cases hfound
    exact Location.ofValue_of_spelled hplace
  | some w =>
    rw [heffective] at hfound
    cases hfound
    exact hplace

/-! ## What is stored -/

/-- **Where a new table lies.**  Whatever fails on the server, if a table is created with a location given apart
from its properties, then one version is added to the group under exactly the namespace's name, and its document is
read with the sources of the location in effect: of the properties behind the one with exactly the name
`external_location`, the last with this name in small letters, and the location that was given if there is none. -/
theorem createTable_sources [Json.Nesting] (hkeys : ∀ p ∈ properties, ∃ k, p.1 = .text k)
    (hlocation : location ≠ .null) (s : Server) {v : Version} :
    let created := (c.createTable i columns location properties).run.run Server.answer s
    created.result = .ok v →
    ∃ stored t bucket path,
      created.state.registry.schemasOf i.tableNamespace = s.registry.schemasOf i.tableNamespace ++ [stored] ∧
      stored.version = v ∧ Document.decode stored.info.data = .ok t ∧
      t.options.find? "sources" = some (Document.sourcesAt bucket path) ∧
      Location.ofValue (placeOf location properties) = .ok ⟨.text bucket, .text path⟩ := by
  intro created hcreated
  have hany : s.FaultsAre fun _ _ => True := fun _ _ => trivial
  obtain ⟨name, document, g, hwrites, hg, hr, hversion | ⟨f, -, hfailed⟩⟩ | ⟨⟨f, hfailed⟩, -⟩ :=
    (c.createTable_leaves (r := s.registry)).run hany
  · obtain ⟨t, bucket, path, ht, hsources, hplace⟩ := exists_sources_of_writes hkeys hlocation hwrites
    refine ⟨s.registry.newSchema g (Tables.schemaOf name document), t, bucket, path, ?_, ?_, ht, hsources, hplace⟩
    · rw [hr, Registry.schemasOf_addSchema hg]
    · exact Except.ok.inj (hversion.symm.trans hcreated)
  · cases hcreated.symm.trans hfailed
  · cases hcreated.symm.trans hfailed

section

open Json.Usual

/-- A table with a new location is created in the namespace `sales`. -/
theorem createTable_relocated (properties : Members)
    (hwrites : ∃ document, Writes (.parts ["sales", "orders"]) (.schema ordersSchema) (.text "s3://lake/new/")
      properties "orders" document) :
    let s : Server := { Server.start true with registry := salesOf [] }
    let created := (c.createTable (.parts ["sales", "orders"]) (.schema ordersSchema) (.text "s3://lake/new/")
      properties).run.run Server.answer s
    created.result = .ok ⟨"orders", 0, 0⟩ := by
  intro s created
  obtain ⟨document, cs, hcs, hname, hdocument⟩ := hwrites
  have hg : (salesOf []).group? "sales" = some ⟨"sales", .ofOwner (.text ""), []⟩ := rfl
  exact ((c.createTable_stored hcs hname hdocument hg).run ⟨rfl, rfl⟩ rfl).1

/-- A location in another spelling that stands before is not in effect. -/
theorem createTable_sources_lake :
    ∃ (c : Catalog) (i : Identifier) (columns : TableColumns) (properties : Members) (s : Server)
      (stored : StoredSchema) (t : StoredTable),
      (.text "External_Location", .text "s3://b/y/") ∈ properties ∧
      let created := (c.createTable i columns (.text "s3://lake/new/") properties).run.run Server.answer s
      created.result = .ok stored.version ∧ created.state.registry.schemasOf i.tableNamespace = [stored] ∧
      Document.decode stored.info.data = .ok t ∧
      t.options.find? "sources" = some (.object [(.text "lake", .list [.text "/new/"])]) := by
  let c : Catalog := ⟨⟨.text "localhost", 9092, .text "default"⟩⟩
  let properties : Members :=
    [(.text "External_Location", .text "s3://b/y/"), (.text "external_location", .text "s3://a/x/"),
     (.text "format", .text "csv")]
  let s : Server := { Server.start true with registry := salesOf [] }
  have hkeys : ∀ p ∈ properties, ∃ k, p.1 = .text k := by simp [properties]
  have hcreated := c.createTable_relocated properties (exists_writes rfl rfl (by decide +kernel))
  obtain ⟨stored, t, bucket, path, hstored, hversion, ht, hsources, hplace⟩ :=
    c.createTable_sources hkeys (by simp) s hcreated
  have hnone : Options.effective? "external_location" (properties.behind "external_location") = none := by
    rw [← Option.isNone_iff_eq_none]
    decide
  have hlake : Location.ofValue (.text "s3://lake/new/") = .ok ⟨.text "lake", .text "/new/"⟩ :=
    Location.ofValue_text rfl
  rw [placeOf, hnone, Option.getD_none, hlake] at hplace
  cases hplace
  rw [← hversion] at hcreated
  exact ⟨c, _, _, properties, s, stored, t, List.mem_cons_self, hcreated, hstored, ht, hsources⟩

/-- The location that is given apart does not always decide: one in another spelling that stands behind the
property it takes the place of is in effect. -/
theorem not_always_located :
    ¬∀ (c : Catalog) (i : Identifier) (columns : TableColumns) (location : Value) (properties : Members)
      (s : Server)
      (v : Version), (∀ p ∈ properties, ∃ k, p.1 = .text k) → location ≠ .null →
      let created := (c.createTable i columns location properties).run.run Server.answer s
      created.result = .ok v →
      ∃ stored t bucket path,
        created.state.registry.schemasOf i.tableNamespace = s.registry.schemasOf i.tableNamespace ++ [stored] ∧
        stored.version = v ∧ Document.decode stored.info.data = .ok t ∧
        t.options.find? "sources" = some (Document.sourcesAt bucket path) ∧
        Location.ofValue location = .ok ⟨.text bucket, .text path⟩ := by
  intro hlocated
  let c : Catalog := ⟨⟨.text "localhost", 9092, .text "default"⟩⟩
  let properties : Members :=
    [(.text "format", .text "csv"), (.text "external_location", .text "s3://a/x/"),
     (.text "External_Location", .text "s3://b/y/")]
  let s : Server := { Server.start true with registry := salesOf [] }
  have hkeys : ∀ p ∈ properties, ∃ k, p.1 = .text k := by simp [properties]
  have hcreated := c.createTable_relocated properties (exists_writes rfl rfl (by decide +kernel))
  obtain ⟨stored, t, bucket, path, hstored, -, ht, hsources, hplace⟩ :=
    hlocated c _ _ _ properties s _ hkeys (by simp) hcreated
  -- the sources of what is stored are those of the location in effect, too
  obtain ⟨stored', t', bucket', path', hstored', -, ht', hsources', hplace'⟩ :=
    c.createTable_sources hkeys (by simp) s hcreated
  obtain rfl : stored = stored' :=
    List.singleton_inj.mp (List.append_cancel_left (hstored.symm.trans hstored'))
  obtain rfl : t = t' := Except.ok.inj (ht.symm.trans ht')
  have hsame : Document.sourcesAt bucket path = Document.sourcesAt bucket' path' :=
    Option.some.inj (hsources.symm.trans hsources')
  obtain ⟨rfl, rfl⟩ : bucket = bucket' ∧ path = path' := by simpa [Document.sourcesAt] using hsame
  have hlake : Location.ofValue (.text "s3://lake/new/") = .ok ⟨.text "lake", .text "/new/"⟩ :=
    Location.ofValue_text rfl
  cases hplace.symm.trans hlake
  have hother : ((Location.ofValue (placeOf (.text "s3://lake/new/") properties)).toOption.bind fun l =>
      l.bucket.text?) = some "b" := by rfl
  rw [hplace'] at hother
  have hbucket : "lake" = "b" := Option.some.inj hother
  exact absurd hbucket (by decide)

end

end Catalog

end SchemaCatalog
