/-
  How a namespace is spelled.

  A look-up takes the name of a namespace in any letter case: it means the first group that has it so.  A table
  is created and dropped under the name exactly as given, and so is a namespace.  This module tells what comes
  of the difference when a table is looked for after it has been dropped, or after it has been created, and a
  namespace after it has been dropped.

    - After a drop, a table is still found if and only if its namespace means a group that is spelled
      otherwise and holds a version of the table.
    - In a namespace that is there, a table can be created if and only if there is a group of exactly the name;
      it is found afterwards unless its namespace means a group that is spelled otherwise and holds none.
    - After a drop, a namespace is still found if and only if there is a group that is spelled otherwise.

  So a table that is dropped under another spelling of its namespace is still there, and so is a namespace; and a
  namespace that exists may not take a table.
-/
import SchemaCatalog.Proofs.Catalog.Creating

namespace SchemaCatalog

variable {r : Registry}

/-! ## What a name means -/

namespace Registry

variable {name : String} {g : Group}

/-- The group that a look-up takes a name to mean: the first that has it in whatever letter case. -/
def meant? (r : Registry) (name : String) : Option Group := r.groups.find? fun g => Text.sameName g.name name

/-- Whether the group that a namespace means holds a version of a table. -/
def holds (r : Registry) (ns name : String) : Bool :=
  (r.meant? ns).any fun g => g.schemas.any (Tables.isNamed name)

/-- The group that is meant is found under its own name: one before it with that name would be meant instead. -/
theorem group?_of_meant? (h : r.meant? name = some g) : r.group? g.name = some g := by
  obtain ⟨hsame, before, after, hgroups, hbefore⟩ := List.find?_eq_some_iff_append.mp h
  refine List.find?_eq_some_iff_append.mpr ⟨beq_self_eq_true _, before, after, hgroups, fun g' hg' => ?_⟩
  rw [Bool.not_eq_true', beq_eq_false_iff_ne]
  intro hname
  have hother := hbefore g' hg'
  rw [hname, hsame] at hother
  cases hother

/-- A change under a namespace counts if the namespace means a group of exactly this name. -/
theorem holds_updateSchemas (f : List StoredSchema → List StoredSchema) (ns name : String) :
    (r.updateSchemas ns f).holds ns name = true ↔
      ∃ g, r.meant? ns = some g ∧
        if g.name = ns then ∃ v ∈ f g.schemas, Tables.isNamed name v = true
        else ∃ v ∈ g.schemas, Tables.isNamed name v = true := by
  have hmeant : (r.updateSchemas ns f).meant? ns = (r.meant? ns).map _ :=
    find?_updateSchemas f fun n => Text.sameName n ns
  rw [holds, hmeant]
  cases r.meant? ns with
  | none => simp only [Option.map_none, Option.any_none, Bool.false_eq_true, reduceCtorEq, false_and, exists_false]
  | some g =>
    simp only [Option.map_some, Option.any_some, Option.some.injEq, exists_eq_left', beq_iff_eq]
    split <;> exact List.any_eq_true

/-- Once the versions of a table are deleted under a namespace, only a group spelled otherwise holds one. -/
theorem holds_deleteVersions (r : Registry) (ns name : String) :
    (r.deleteVersions ns ((r.schemasOf ns).filter (Tables.isNamed name))).holds ns name = true ↔
      ∃ g, r.meant? ns = some g ∧ g.name ≠ ns ∧ ∃ v ∈ g.schemas, Tables.isNamed name v = true := by
  rw [deleteVersions_eq, holds_updateSchemas]
  refine exists_congr fun g => and_congr_right fun hmeant => ?_
  by_cases hname : g.name = ns
  · rw [if_pos hname]
    refine ⟨?_, fun h => absurd hname h.1⟩
    rintro ⟨v, hv, hnamed⟩
    -- a version of the table in this group would be among those deleted
    obtain ⟨hv, hall⟩ := List.mem_filter.mp hv
    have hg : r.group? ns = some g := hname ▸ group?_of_meant? hmeant
    rw [schemasOf_of_some hg] at hall
    have hne := List.all_eq_true.mp hall v (List.mem_filter.mpr ⟨hv, hnamed⟩)
    rw [beq_self_eq_true] at hne
    cases hne
  · rw [if_neg hname]
    exact (and_iff_right hname).symm

/-- Once a version of a table is added under a namespace, a group spelled otherwise has to hold one itself. -/
theorem holds_addSchema {ns : String} (hg : r.group? ns = some g) (info : SchemaInfo) :
    (r.addSchema g info).holds ns info.type = true ↔
      ∃ g', r.meant? ns = some g' ∧ (g'.name = ns ∨ ∃ v ∈ g'.schemas, Tables.isNamed info.type v = true) := by
  obtain rfl := name_of_group? hg
  refine (holds_updateSchemas (· ++ [r.newSchema g info]) g.name info.type).trans ?_
  refine exists_congr fun g' => and_congr_right fun hmeant => ?_
  by_cases hname : g'.name = g.name
  · rw [if_pos hname]
    have hnew : Tables.isNamed info.type (r.newSchema g info) = true := beq_self_eq_true _
    exact ⟨fun _ => .inl hname, fun _ => ⟨_, List.mem_append_right _ (List.mem_singleton.mpr rfl), hnew⟩⟩
  · rw [if_neg hname, or_iff_right hname]

/-- Once the group of exactly a name is removed, only one spelled otherwise has the name in some letter case. -/
theorem any_sameName_removeGroup (r : Registry) (name : String) :
    ((r.removeGroup name).groups.map Group.name).any (fun n => Text.sameName n name) = true ↔
      ∃ g ∈ r.groups, g.name ≠ name ∧ Text.sameName g.name name = true := by
  rw [List.any_map, List.any_eq_true, removeGroup]
  simp only [List.mem_filter, Bool.not_eq_true', beq_eq_false_iff_ne, and_assoc]
  rfl

end Registry

/-- A table is looked for in the group that its namespace means. -/
theorem Tables.has_gives (e : Endpoint) (ns name : String) (r : Registry) :
    (Tables.has e ns name).Gives r (.ok (r.holds ns name)) r := by
  refine Attempt.Gives.handle (Attempt.Gives.handle (attemptInSession_gives fun client => ?_))
  have hlist : Attempt.Gives (Session.call ⟨e, client⟩ .listGroups) r
      (.ok (r.groups.map fun g => (g.name, g.properties))) r := Attempt.Gives.call ⟨e, client⟩ rfl
  refine Attempt.Gives.bind hlist ?_
  have hfind : ((r.groups.map fun g => (g.name, g.properties)).find? fun g => Text.sameName g.1 ns) =
      (r.meant? ns).map fun g => (g.name, g.properties) := List.find?_map
  rw [hfind, Registry.holds]
  cases hmeant : r.meant? ns with
  | none =>
    -- nothing is listed, or nothing of that name
    split
    · exact Attempt.Gives.bind (.say _ _ _ r) (.pure _ r)
    · exact .pure _ r
  | some g =>
    split
    · rename_i hempty
      rw [List.isEmpty_iff, List.map_eq_nil_iff] at hempty
      rw [Registry.meant?, hempty] at hmeant
      cases hmeant
    · have hcall := Attempt.Gives.call ⟨e, client⟩
        (Registry.perform_getSchemas (Registry.group?_of_meant? hmeant))
      refine Attempt.Gives.bind hcall ?_
      rw [Option.any_some]
      cases g.schemas.any (isNamed name) with
      | true => exact Attempt.Gives.bind (.say _ _ _ r) (.pure _ r)
      | false => exact .pure _ r

/-! ## Looking after a change -/

namespace Catalog

variable (c : Catalog) {i : Identifier} {name : String}

theorem hasTable_gives (hname : i.tableName = .ok name) (r : Registry) :
    (c.hasTable i).Gives r (.ok (r.holds i.tableNamespace name)) r :=
  Attempt.Gives.bind (.lift hname r) (Tables.has_gives c.endpoint i.tableNamespace name r)

theorem hasNamespace_gives (ns : Identifier) (r : Registry) :
    (c.hasNamespace ns).Gives r (.ok ((r.groups.map Group.name).any fun n => Text.sameName n ns.toText)) r :=
  Namespaces.has_gives c.endpoint ns.toText r

theorem dropTable_each_gives (hname : i.tableName = .ok name) (r : Registry) :
    (c.dropTable i).Gives r (.ok ()) (r.deleteVersions i.tableNamespace
      ((r.schemasOf i.tableNamespace).filter (Tables.isNamed name))) :=
  Attempt.Gives.bind (.lift hname r)
    (Attempt.Gives.bind (Tables.drop_each_gives c.endpoint i.tableNamespace name r) (.pure () _))

/-- **A dropped table is found only under another spelling of its namespace.**  Dropping succeeds, and
afterwards the table is found if and only if its namespace means a group that is spelled otherwise and holds a
version of the table. -/
theorem hasTable_after_dropTable (hname : i.tableName = .ok name) {s : Server} (hs : s.Healthy) :
    let dropped := (c.dropTable i).run.run Server.answer s
    let looked := (c.hasTable i).run.run Server.answer dropped.state
    dropped.result = .ok () ∧
    ∃ found, looked.result = .ok found ∧
      (found = true ↔ ∃ g, s.registry.meant? i.tableNamespace = some g ∧ g.name ≠ i.tableNamespace ∧
        ∃ v ∈ g.schemas, Text.sameName v.info.type name = true) := by
  intro dropped looked
  obtain ⟨hresult, hs', hr'⟩ := (c.dropTable_each_gives hname s.registry).run hs rfl
  have hlooked := ((c.hasTable_gives hname _).run hs' hr').1
  exact ⟨hresult, _, hlooked, Registry.holds_deleteVersions s.registry i.tableNamespace name⟩

/-- Of two groups whose names differ in letter case, the second is addressed exactly; the look-up means the
first, which holds the table too. -/
theorem hasTable_after_dropTable_twin :
    ∃ (c : Catalog) (i : Identifier) (s : Server), i.tableName = .ok "orders" ∧ s.Healthy ∧
      let dropped := (c.dropTable i).run.run Server.answer s
      let looked := (c.hasTable i).run.run Server.answer dropped.state
      dropped.result = .ok () ∧ looked.result = .ok true := by
  let stored (id : Nat) : StoredSchema := ⟨Tables.schemaOf "orders" "", ⟨"orders", 0, id⟩⟩
  let r : Registry := ⟨[⟨"sales", .ofOwner .null, [stored 0]⟩, ⟨"SALES", .ofOwner .null, [stored 1]⟩], 2⟩
  let c : Catalog := ⟨⟨.text "localhost", 9092, .text "default"⟩⟩
  let i : Identifier := .parts ["SALES", "orders"]
  let s : Server := { Server.start true with registry := r }
  have hs : s.Healthy := ⟨rfl, rfl⟩
  obtain ⟨hdropped, found, hlooked, hfound⟩ := c.hasTable_after_dropTable (i := i) rfl hs
  have hsame : Text.sameName "sales" i.tableNamespace = true := by decide +kernel
  have hother : "sales" ≠ i.tableNamespace := by decide +kernel
  have hmeant : s.registry.meant? i.tableNamespace = some ⟨"sales", .ofOwner .null, [stored 0]⟩ :=
    List.find?_cons_of_pos hsame
  rw [hfound.mpr ⟨_, hmeant, hother, stored 0, List.mem_singleton.mpr rfl, beq_self_eq_true _⟩] at hlooked
  exact ⟨c, i, s, rfl, hs, hdropped, hlooked⟩

/-- Dropping does not make a table absent under every spelling: `sales` is not dropped from as `SALES`, but looked
up so. -/
theorem not_absent_after_dropTable :
    ¬∀ (c : Catalog) (i : Identifier) (s : Server), s.Healthy →
      let dropped := (c.dropTable i).run.run Server.answer s
      let looked := (c.hasTable i).run.run Server.answer dropped.state
      dropped.result = .ok () → looked.result = .ok false := by
  intro habsent
  let r : Registry := ⟨[⟨"sales", .ofOwner .null, [⟨Tables.schemaOf "orders" "", ⟨"orders", 0, 0⟩⟩]⟩], 1⟩
  let c : Catalog := ⟨⟨.text "localhost", 9092, .text "default"⟩⟩
  let i : Identifier := .parts ["SALES", "orders"]
  let s : Server := { Server.start true with registry := r }
  have hs : s.Healthy := ⟨rfl, rfl⟩
  have hname : i.tableName = .ok "orders" := rfl
  have hlooked := habsent c i s hs ((c.dropTable_each_gives hname s.registry).run hs rfl).1
  have hfound : ((c.hasTable i).run.run Server.answer
      ((c.dropTable i).run.run Server.answer s).state).result = .ok true :=
    eq_ok_of_toOption (by decide +kernel)
  rw [hlooked] at hfound
  cases hfound

/-- **A dropped namespace is found only if a group is spelled otherwise.**  Dropping succeeds, and afterwards the
namespace is found if and only if the name of some group differs from its name in letter case alone. -/
theorem hasNamespace_after_dropNamespace (ns : Identifier) {s : Server} (hs : s.Healthy) :
    let dropped := (c.dropNamespace ns).run.run Server.answer s
    let looked := (c.hasNamespace ns).run.run Server.answer dropped.state
    dropped.result = .ok () ∧
    ∃ found, looked.result = .ok found ∧
      (found = true ↔ ∃ g ∈ s.registry.groups, g.name ≠ ns.toText ∧ Text.sameName g.name ns.toText = true) := by
  intro dropped looked
  obtain ⟨hresult, hs', hr'⟩ := (c.dropNamespace_gives ns s.registry).run hs rfl
  have hlooked := ((c.hasNamespace_gives ns _).run hs' hr').1
  exact ⟨hresult, _, hlooked, s.registry.any_sameName_removeGroup ns.toText⟩

/-- Of two groups whose names differ in letter case, the one that is addressed exactly is removed; the look-up
finds the other. -/
theorem hasNamespace_after_dropNamespace_twin :
    ∃ (c : Catalog) (ns : Identifier) (s : Server), s.Healthy ∧
      let dropped := (c.dropNamespace ns).run.run Server.answer s
      let looked := (c.hasNamespace ns).run.run Server.answer dropped.state
      dropped.result = .ok () ∧ looked.result = .ok true := by
  let r : Registry := ⟨[⟨"sales", .ofOwner .null, []⟩, ⟨"SALES", .ofOwner .null, []⟩], 0⟩
  let c : Catalog := ⟨⟨.text "localhost", 9092, .text "default"⟩⟩
  let ns : Identifier := .parts ["SALES"]
  let s : Server := { Server.start true with registry := r }
  have hs : s.Healthy := ⟨rfl, rfl⟩
  obtain ⟨hdropped, found, hlooked, hfound⟩ := c.hasNamespace_after_dropNamespace ns hs
  have hsame : Text.sameName "sales" ns.toText = true := by decide +kernel
  have hother : "sales" ≠ ns.toText := by decide +kernel
  rw [hfound.mpr ⟨_, List.mem_cons_self, hother, hsame⟩] at hlooked
  exact ⟨c, ns, s, hs, hdropped, hlooked⟩

/-- Dropping does not make a namespace absent under every spelling: `sales` is not dropped as `SALES`, but
looked up so. -/
theorem not_absent_after_dropNamespace :
    ¬∀ (c : Catalog) (ns : Identifier) (s : Server), s.Healthy →
      let dropped := (c.dropNamespace ns).run.run Server.answer s
      let looked := (c.hasNamespace ns).run.run Server.answer dropped.state
      dropped.result = .ok () → looked.result = .ok false := by
  intro habsent
  let r : Registry := ⟨[⟨"sales", .ofOwner .null, []⟩], 0⟩
  let c : Catalog := ⟨⟨.text "localhost", 9092, .text "default"⟩⟩
  let ns : Identifier := .name "SALES"
  let s : Server := { Server.start true with registry := r }
  have hs : s.Healthy := ⟨rfl, rfl⟩
  have hlooked := habsent c ns s hs ((c.dropNamespace_gives ns s.registry).run hs rfl).1
  have hfound : ((c.hasNamespace ns).run.run Server.answer
      ((c.dropNamespace ns).run.run Server.answer s).state).result = .ok true :=
    eq_ok_of_toOption (by decide +kernel)
  rw [hlooked] at hfound
  cases hfound

/-- **A table can be created in a namespace that is spelled as its group is.**  Where there is something to
write and the namespace is there in some letter case, the creation succeeds if and only if a group has exactly
this name; otherwise it fails for want of the group, and changes nothing.  A table that was created is found if
and only if its namespace means the very group, or one that holds a version of it already. -/
theorem createTable_of_hasNamespace [Json.Nesting] {columns : TableColumns} {location : Value}
    {properties : Members} {document : String} (hwrites : Writes i columns location properties name document)
    {s : Server}
    (hs : s.Healthy)
    (hthere : ((c.hasNamespace (.name i.tableNamespace)).run.run Server.answer s).result = .ok true) :
    let created := (c.createTable i columns location properties).run.run Server.answer s
    let looked := (c.hasTable i).run.run Server.answer created.state
    let r := s.registry
    ((∃ v, created.result = .ok v) ↔ (r.group? i.tableNamespace).isSome) ∧
    (r.group? i.tableNamespace = none →
      created.result = .error (.noGroup i.tableNamespace) ∧ created.state.registry = r) ∧
    ((r.group? i.tableNamespace).isSome → ∃ found, looked.result = .ok found ∧
      (found = true ↔ ∃ g, r.meant? i.tableNamespace = some g ∧
        (g.name = i.tableNamespace ∨ ∃ v ∈ g.schemas, Text.sameName v.info.type name = true))) := by
  intro created looked r
  obtain ⟨cs, hcs, hname, hdocument⟩ := hwrites
  cases hg : r.group? i.tableNamespace with
  | none =>
    have hhas : Attempt.Gives (c.hasNamespace (.name i.tableNamespace)) r _ r :=
      Namespaces.has_gives c.endpoint i.tableNamespace r
    have hany := Except.ok.inj ((hhas.run hs rfl).1.symm.trans hthere)
    have hrequire := c.requireNamespace_gives i.tableNamespace r
    rw [if_pos hany] at hrequire
    have hcreate : (c.createTable i columns location properties).Gives r (.error (.noGroup i.tableNamespace)) r :=
      Attempt.Gives.bind hrequire (Attempt.Gives.bind (.lift hcs r) (Attempt.Gives.bind (.lift hname r)
        (Tables.create_homeless hdocument hg)))
    obtain ⟨hresult, -, hr'⟩ := hcreate.run hs rfl
    refine ⟨⟨?_, fun h => (by cases h)⟩, fun _ => ⟨hresult, hr'⟩, fun h => (by cases h)⟩
    rintro ⟨v, hv⟩
    rw [hresult] at hv
    cases hv
  | some g =>
    obtain ⟨hresult, hs', hr'⟩ := (c.createTable_stored hcs hname hdocument hg).run hs rfl
    have hlooked := ((c.hasTable_gives hname _).run hs' hr').1
    refine ⟨⟨fun _ => rfl, fun _ => ⟨_, hresult⟩⟩, fun h => (by cases h), fun _ => ⟨_, hlooked, ?_⟩⟩
    exact Registry.holds_addSchema hg (Tables.schemaOf name document)

section

open Json.Usual

/-- A table is created in the second of two groups whose names differ in letter case, and looked for in the
first. -/
theorem createTable_of_hasNamespace_twin :
    ∃ (c : Catalog) (i : Identifier) (columns : TableColumns) (properties : Members) (document : String)
      (s : Server), Writes i columns .null properties "orders" document ∧ s.Healthy ∧
      ((c.hasNamespace (.name i.tableNamespace)).run.run Server.answer s).result = .ok true ∧
      let created := (c.createTable i columns .null properties).run.run Server.answer s
      let looked := (c.hasTable i).run.run Server.answer created.state
      (∃ v, created.result = .ok v) ∧ looked.result = .ok false := by
  let r : Registry := ⟨[⟨"SALES", .ofOwner .null, []⟩, ⟨"sales", .ofOwner .null, []⟩], 0⟩
  let c : Catalog := ⟨⟨.text "localhost", 9092, .text "default"⟩⟩
  let i : Identifier := .parts ["sales", "orders"]
  let columns : TableColumns := .columns [⟨.text "id", .text "BIGINT"⟩]
  let properties : Members :=
    [(.text "format", .text "csv"), (.text "external_location", .text "s3://mybucket/orders/")]
  let s : Server := { Server.start true with registry := r }
  have hs : s.Healthy := ⟨rfl, rfl⟩
  obtain ⟨document, hwrites⟩ : ∃ document, Writes i columns .null properties "orders" document :=
    exists_writes rfl rfl (by decide +kernel)
  have hsame : Text.sameName "SALES" i.tableNamespace = true := by decide +kernel
  have hother : "SALES" ≠ i.tableNamespace := by decide +kernel
  have hthere : ((c.hasNamespace (.name i.tableNamespace)).run.run Server.answer s).result = .ok true :=
    eq_ok_of_toOption (by decide +kernel)
  obtain ⟨hcreated, -, hlooked⟩ := c.createTable_of_hasNamespace hwrites hs hthere
  have hsome : (s.registry.group? i.tableNamespace).isSome := by decide +kernel
  obtain ⟨found, hresult, hfound⟩ := hlooked hsome
  refine ⟨c, i, columns, properties, document, s, hwrites, hs, hthere, hcreated.mpr hsome, ?_⟩
  cases found with
  | false => exact hresult
  | true =>
    -- the namespace means the first group, which is neither the one created in nor holds anything
    have hmeant : s.registry.meant? i.tableNamespace = some ⟨"SALES", .ofOwner .null, []⟩ :=
      List.find?_cons_of_pos hsame
    obtain ⟨g, hg, hname | ⟨v, hv, -⟩⟩ := hfound.mp rfl
    · cases hmeant.symm.trans hg
      exact absurd hname hother
    · cases hmeant.symm.trans hg
      cases hv

/-- A namespace that is there does not take a table under every spelling: the group of `sales` is not that of
`SALES`. -/
theorem not_created_in_every_namespace :
    ¬∀ (c : Catalog) (i : Identifier) (columns : TableColumns) (location : Value) (properties : Members)
      (name document : String) (s : Server), Writes i columns location properties name document → s.Healthy →
      ((c.hasNamespace (.name i.tableNamespace)).run.run Server.answer s).result = .ok true →
      let created := (c.createTable i columns location properties).run.run Server.answer s
      let looked := (c.hasTable i).run.run Server.answer created.state
      (∃ v, created.result = .ok v) ∧ looked.result = .ok true := by
  intro hworks
  let r : Registry := ⟨[⟨"sales", .ofOwner .null, []⟩], 0⟩
  let c : Catalog := ⟨⟨.text "localhost", 9092, .text "default"⟩⟩
  let i : Identifier := .parts ["SALES", "orders"]
  let columns : TableColumns := .columns [⟨.text "id", .text "BIGINT"⟩]
  let properties : Members :=
    [(.text "format", .text "csv"), (.text "external_location", .text "s3://mybucket/orders/")]
  let s : Server := { Server.start true with registry := r }
  obtain ⟨document, hwrites⟩ : ∃ document, Writes i columns .null properties "orders" document :=
    exists_writes rfl rfl (by decide +kernel)
  have hthere : ((c.hasNamespace (.name i.tableNamespace)).run.run Server.answer s).result = .ok true :=
    eq_ok_of_toOption (by decide +kernel)
  obtain ⟨⟨v, hv⟩, -⟩ := hworks c i columns .null properties "orders" document s hwrites ⟨rfl, rfl⟩ hthere
  have hfailed : ((c.createTable i columns .null properties).run.run Server.answer s).result.toOption = none := by
    decide +kernel
  rw [hv] at hfailed
  cases hfailed

end

end Catalog

end SchemaCatalog
