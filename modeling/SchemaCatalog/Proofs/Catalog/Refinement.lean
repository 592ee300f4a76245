/-
  The catalog refines the ledger.

  One step: whatever the operation, if a ledger reflects a registry, then after the operation the ledger's
  step reflects what the catalog has left, whether or not the operation failed.  There is a lemma for each
  operation.  The one with an argument in it is the creation of a table: something is stored of a table
  exactly if its document can be written, and then that is what is read from the document.

  All steps: by induction on the operations, from an empty registry and an empty ledger.  Listing the
  catalog at the end lists the ledger.
-/
import SchemaCatalog.Proofs.Catalog.Effects
import SchemaCatalog.Proofs.Catalog.Ledger
import SchemaCatalog.Proofs.Snapshot.Build

namespace SchemaCatalog

variable {l : Ledger} {r : Registry}

/-! ## Names -/

/-- A ledger has the names of the groups. -/
theorem Reflects.names [Json.Nesting] (h : Reflects l r) : r.groups.map Group.name = l.map Shelf.name := by
  have hfst := congrArg (List.map Prod.fst) h.contents
  rw [List.map_map, List.map_map] at hfst
  exact hfst

/-- A name that no shelf has changes nothing. -/
theorem Ledger.update_of_not_mem {name : String} (h : name ∉ l.map Shelf.name)
    (f : List (String × StoredTable) → List (String × StoredTable)) : l.update name f = l := by
  unfold Ledger.update
  refine (List.map_congr_left fun s hs => ?_).trans (List.map_id l)
  have hne : s.name ≠ name := fun heq => h (List.mem_map.mpr ⟨s, hs, heq⟩)
  rw [if_neg fun heq => hne (beq_iff_eq.mp heq), id]

/-! ## Namespaces -/

section

variable [Json.Nesting]

theorem reflects_empty : Reflects [] .empty where
  sound := Registry.sound_empty
  contents := rfl
  named := fun _ hs => by cases hs

theorem Reflects.createNamespace (h : Reflects l r) (name : String) (properties : GroupProperties) :
    Reflects (if l.any fun s => s.name == name then l else l ++ [⟨name, []⟩]) (r.addGroup name properties) := by
  -- both sides ask the same question before they add anything
  have hany : (l.any fun s => s.name == name) = (r.group? name).isSome := by
    rw [Bool.eq_iff_iff, Registry.group?_isSome, h.names]
    simp only [List.any_eq_true, beq_iff_eq, List.mem_map]
  have hsound := h.sound.addGroup name properties
  unfold Registry.addGroup at hsound ⊢
  rw [hany]
  split at hsound
  · rename_i hold
    rw [if_pos hold, if_pos hold]
    exact h
  · rename_i hnew
    rw [if_neg hnew, if_neg hnew]
    refine ⟨hsound, ?_, ?_⟩
    · rw [List.map_append, List.map_append, h.contents]
      rfl
    · intro s hs
      rcases List.mem_append.mp hs with hs | hs
      · exact h.named s hs
      · rw [List.mem_singleton.mp hs]
        intro v hv
        cases hv

theorem Reflects.dropNamespace (h : Reflects l r) (name : String) :
    Reflects (l.filter fun s => !(s.name == name)) (r.removeGroup name) where
  sound := h.sound.removeGroup name
  contents := by
    -- on both sides the contents under the name are dropped
    have hgroups : ((r.groups.map Group.contents).filter fun c => !(c.1 == name)) =
        (r.removeGroup name).groups.map Group.contents := List.filter_map
    have hshelves : ((l.map Shelf.contents).filter fun c => !(c.1 == name)) =
        (l.filter fun s => !(s.name == name)).map Shelf.contents := List.filter_map
    rw [← hgroups, ← hshelves, h.contents]
  named := fun s hs => h.named s (List.mem_of_mem_filter hs)

end

/-! ## Tables -/

/-- Contents with a change under one name. -/
def Contents.change (name : String)
    (F : List (String × Except Unreadable StoredTable) → List (String × Except Unreadable StoredTable))
    (c : Contents) : Contents :=
  if c.1 == name then (c.1, F c.2) else c

section Update

variable {name : String} {f : List StoredSchema → List StoredSchema}
  {f' : List (String × StoredTable) → List (String × StoredTable)}
  {F : List (String × Except Unreadable StoredTable) → List (String × Except Unreadable StoredTable)}

theorem contents_updateSchemas [Json.Nesting]
    (hf : ∀ ss, (f ss).map StoredSchema.content = F (ss.map StoredSchema.content)) :
    (r.updateSchemas name f).groups.map Group.contents =
      (r.groups.map Group.contents).map (Contents.change name F) := by
  rw [Registry.updateSchemas, List.map_map, List.map_map]
  refine List.map_congr_left fun g _ => ?_
  rw [Function.comp_apply, Function.comp_apply, Contents.change]
  by_cases hname : (g.name == name) = true
  · have hsame : (g.contents.1 == name) = true := hname
    rw [if_pos hname, if_pos hsame, Group.contents, hf]
    rfl
  · have hother : ¬(g.contents.1 == name) = true := hname
    rw [if_neg hname, if_neg hother]

theorem contents_update
    (hf' : ∀ vs, ((f' vs).map fun v => (v.1, Except.ok v.2)) = F (vs.map fun v => (v.1, .ok v.2))) :
    (l.update name f').map Shelf.contents = (l.map Shelf.contents).map (Contents.change name F) := by
  rw [Ledger.update, List.map_map, List.map_map]
  refine List.map_congr_left fun s _ => ?_
  rw [Function.comp_apply, Function.comp_apply, Contents.change]
  by_cases hname : (s.name == name) = true
  · have hsame : (s.contents.1 == name) = true := hname
    rw [if_pos hname, if_pos hsame, Shelf.contents, hf']
    rfl
  · have hother : ¬(s.contents.1 == name) = true := hname
    rw [if_neg hname, if_neg hother]

/-- A change under one name that changes the contents alike on both sides. -/
theorem Reflects.update [Json.Nesting] (h : Reflects l r)
    (hf : ∀ ss, (f ss).map StoredSchema.content = F (ss.map StoredSchema.content))
    (hf' : ∀ vs, ((f' vs).map fun v => (v.1, Except.ok v.2)) = F (vs.map fun v => (v.1, .ok v.2)))
    (htyped : ∀ g ∈ r.groups, ∀ s ∈ f g.schemas, s.version.type = s.info.type)
    (hnamed : ∀ s ∈ l, s.name = name → ∀ v ∈ f' s.versions,
      v.2.database = .text s.name ∧ v.2.tablename = .text v.1) :
    Reflects (l.update name f') (r.updateSchemas name f) where
  sound := h.sound.updateSchemas htyped
  contents := by rw [contents_updateSchemas hf, contents_update hf', h.contents]
  named := by
    intro s hs
    obtain ⟨s₀, hs₀, rfl⟩ := List.mem_map.mp hs
    by_cases hname : (s₀.name == name) = true
    · rw [if_pos hname]
      exact hnamed s₀ hs₀ (beq_iff_eq.mp hname)
    · rw [if_neg hname]
      exact h.named s₀ hs₀

end Update

theorem Reflects.dropTable [Json.Nesting] (h : Reflects l r) (ns name : String) :
    Reflects (l.update ns fun vs => vs.filter fun v => !Text.sameName v.1 name)
      (Tables.dropped r ns name) := by
  refine h.update (F := fun vs => vs.filter fun v => !Text.sameName v.1 name) ?_ ?_ ?_ ?_
  · intro ss
    rw [List.filter_map]
    rfl
  · intro vs
    rw [List.filter_map]
    rfl
  · exact fun g hg s hs => h.sound.typed g hg s (List.mem_of_mem_filter hs)
  · exact fun s hs _ v hv => h.named s hs v (List.mem_of_mem_filter hv)

/-- A new version goes to the end on both sides. -/
theorem Reflects.createTable [Json.Nesting] (h : Reflects l r) {g : Group} {info : SchemaInfo} {t : StoredTable}
    (hread : Document.decode info.data = .ok t) (hdatabase : t.database = .text g.name)
    (htablename : t.tablename = .text info.type) :
    Reflects (l.update g.name fun vs => vs ++ [(info.type, t)]) (r.addSchema g info) := by
  have hupdate : Reflects (l.update g.name fun vs => vs ++ [(info.type, t)])
      (r.updateSchemas g.name (· ++ [r.newSchema g info])) := by
    refine h.update (F := fun vs => vs ++ [(info.type, .ok t)]) ?_ ?_ ?_ ?_
    · intro ss
      rw [List.map_append, ← hread]
      rfl
    · intro vs
      rw [List.map_append]
      rfl
    · intro g' hg' s hs
      rcases List.mem_append.mp hs with hs | hs
      · exact h.sound.typed g' hg' s hs
      · rw [List.mem_singleton.mp hs]
        rfl
    · intro s hs hname v hv
      rcases List.mem_append.mp hv with hv | hv
      · exact h.named s hs v hv
      · rw [List.mem_singleton.mp hv, hname]
        exact ⟨hdatabase, htablename⟩
  exact ⟨⟨hupdate.sound.distinct, hupdate.sound.typed⟩, hupdate.contents, hupdate.named⟩

/-! ## New tables are plain -/

namespace Catalog

theorem named_columnsOfFields {fs : List (Field String FieldType)} {cs : List Column}
    (h : columnsOfFields fs = .ok cs) : ∀ c ∈ cs, ∃ n, c.name = .text n := by
  induction fs generalizing cs with
  | nil =>
    cases h
    intro c hc
    cases hc
  | cons f fs ih =>
    unfold columnsOfFields at h
    split at h
    · cases h
    · split at h
      · cases h
      · rename_i cs' hcs'
        cases h
        intro c hc
        rcases List.mem_cons.mp hc with rfl | hc
        · exact ⟨f.name, rfl⟩
        · exact ih hcs' c hc

theorem TableColumns.Named.toColumns {columns : TableColumns} (hn : columns.Named) {cs : List Column}
    (h : columns.toColumns = .ok cs) : ∀ c ∈ cs, ∃ n, c.name = .text n := by
  cases columns with
  | columns cs' =>
    cases h
    exact hn
  | schema s => exact named_columnsOfFields h

end Catalog

/-- A location among the properties is one of their values. -/
theorem Catalog.forall_withLocation {P : Value → Prop} {location : Value} {properties : Members}
    (hl : P location) (hp : ∀ p ∈ properties, (∃ k, p.1 = .text k) ∧ P p.2) :
    ∀ p ∈ withLocation location properties, (∃ k, p.1 = .text k) ∧ P p.2 := by
  intro p hmem
  unfold withLocation at hmem
  split at hmem
  · exact hp p hmem
  · rcases Members.mem_put hmem with hold | ⟨hv, hk | ⟨q, hq, hk⟩⟩
    · exact hp p hold
    · exact ⟨⟨_, hk⟩, hv ▸ hl⟩
    · exact ⟨hk ▸ (hp q hq).1, hv ▸ hl⟩

section Plain

variable [Json.Nesting] {i : Identifier} {columns : Catalog.TableColumns} {location : Value}
  {properties : Members} {cs : List Column}

/-- The table that a plain operation creates is plain. -/
theorem Action.IsPlain.table (h : (Action.createTable i columns location properties).IsPlain)
    (hcs : columns.toColumns = .ok cs) (name : String) :
    Table.Plain ⟨.text i.tableNamespace, .text name, cs, Catalog.withLocation location properties⟩ where
  ns := .text _
  name := .text _
  columns := h.1.toColumns hcs
  keys := fun p hp => (Catalog.forall_withLocation h.2.1 h.2.2 p hp).1
  values := fun p hp _ _ _ => (Catalog.forall_withLocation h.2.1 h.2.2 p hp).2.1

/-- Its document has room for it. -/
theorem Action.IsPlain.fits (h : (Action.createTable i columns location properties).IsPlain) (name : String) :
    Table.Fits ⟨.text i.tableNamespace, .text name, cs, Catalog.withLocation location properties⟩ where
  ns := Value.within_scalar rfl
  name := Value.within_scalar rfl
  options := by
    intro k _ v hv
    obtain ⟨_, w, hmem, -, rfl⟩ := Options.exists_of_effective? hv
    exact (Catalog.forall_withLocation h.2.1 h.2.2 _ hmem).2.2.spelled

end Plain

/-! ## One step -/

section Step

variable [Json.Nesting]

/-- Creating a table, whether or not that succeeds. -/
theorem Reflects.stepCreateTable (h : Reflects l r) (c : Catalog) {i : Identifier}
    {columns : Catalog.TableColumns} {location : Value} {properties : Members}
    (ha : (Action.createTable i columns location properties).IsPlain) :
    ∃ x r', (c.createTable i columns location properties).Gives r x r' ∧
      Reflects (l.step (.createTable i columns location properties)) r' := by
  -- the ledger steps exactly if all of these succeed
  by_cases hstored : ∃ cs name t g, columns.toColumns = .ok cs ∧ i.tableName = .ok name ∧
      Table.stored? ⟨.text i.tableNamespace, .text name, cs, Catalog.withLocation location properties⟩ = some t ∧
      r.group? i.tableNamespace = some g
  · obtain ⟨cs, name, t, g, hcolumns, hname, ht, hg⟩ := hstored
    obtain ⟨document, hdocument⟩ := Document.exists_document (ha.table hcolumns name) (ha.fits name) ht
    refine ⟨_, _, c.createTable_stored hcolumns hname hdocument hg, ?_⟩
    have hnames : t.database = .text i.tableNamespace ∧ t.tablename = .text name := by
      obtain ⟨_, _, _, _, -, -, -, -, -, rfl⟩ := Table.stored?_eq_some.mp ht
      exact ⟨rfl, rfl⟩
    have hstep : l.step (.createTable i columns location properties) =
        l.update g.name fun vs => vs ++ [(name, t)] := by
      simp only [Ledger.step, hname, hcolumns, ht, Registry.name_of_group? hg]
    -- what is read from the stored document is what the ledger stores
    have hinfo : Document.decode (Tables.schemaOf name document).data = .ok t :=
      Document.decode_of_stored? (ha.table hcolumns name) ht hdocument
    rw [hstep]
    exact h.createTable hinfo (by rw [Registry.name_of_group? hg]; exact hnames.1) hnames.2
  · have hnot : ∀ cs name document g, columns.toColumns = .ok cs → i.tableName = .ok name →
        Document.encodeTable
          ⟨.text i.tableNamespace, .text name, cs, Catalog.withLocation location properties⟩ = .ok document →
        r.group? i.tableNamespace ≠ some g := by
      intro cs name document g hcolumns hname hdocument hg
      obtain ⟨t, ht⟩ := Document.stored?_of_encodeTable (ha.table hcolumns name) hdocument
      exact hstored ⟨cs, name, t, g, hcolumns, hname, ht, hg⟩
    obtain ⟨f, hfailed⟩ := c.createTable_failed hnot
    refine ⟨_, r, hfailed, ?_⟩
    have hstep : l.step (.createTable i columns location properties) = l := by
      simp only [Ledger.step]
      split
      · rename_i name cs hname hcolumns
        split
        · rename_i t ht
          refine Ledger.update_of_not_mem (fun hmem => ?_) _
          rw [← h.names, ← Registry.group?_isSome] at hmem
          obtain ⟨g, hg⟩ := Option.isSome_iff_exists.mp hmem
          exact hstored ⟨cs, name, t, g, hcolumns, hname, ht, hg⟩
        · rfl
      · rfl
    rw [hstep]
    exact h

/-- One operation, whether or not it fails: the ledger's step reflects what it leaves. -/
theorem Reflects.step (h : Reflects l r) (c : Catalog) {a : Action} (ha : a.IsPlain) :
    ∃ x r', (a.attempt c).Gives r x r' ∧ Reflects (l.step a) r' := by
  cases a with
  | createNamespace ns properties =>
    exact ⟨_, _, c.createNamespace_gives ns properties r, h.createNamespace ns.toText _⟩
  | dropNamespace ns => exact ⟨_, _, c.dropNamespace_gives ns r, h.dropNamespace ns.toText⟩
  | createTable i columns location properties =>
    obtain ⟨x, r', hgives, hreflects⟩ := h.stepCreateTable c ha
    cases x with
    | error f => exact ⟨_, r', Attempt.Gives.bind_error hgives, hreflects⟩
    | ok version => exact ⟨_, r', Attempt.Gives.bind hgives (.pure () r'), hreflects⟩
  | dropTable i =>
    cases hname : i.tableName with
    | error f =>
      refine ⟨_, r, c.dropTable_nameless hname r, ?_⟩
      rw [Ledger.step, hname]
      exact h
    | ok name =>
      refine ⟨_, _, c.dropTable_gives hname h.sound, ?_⟩
      rw [Ledger.step, hname]
      exact h.dropTable i.tableNamespace name

/-! ## All steps -/

theorem Reflects.after (c : Catalog) {s : Server} (hs : s.Healthy) (h : Reflects l s.registry) {a : Action}
    (ha : a.IsPlain) : (a.after c s).Healthy ∧ Reflects (l.step a) (a.after c s).registry := by
  obtain ⟨x, r', hgives, hreflects⟩ := h.step c ha
  obtain ⟨s', hplay, hs', rfl⟩ := hgives s hs rfl
  have hafter : a.after c s = s' := congrArg Prod.snd hplay
  rw [hafter]
  exact ⟨hs', hreflects⟩

/-- Any number of operations. -/
theorem reflects_run (c : Catalog) {actions : List Action} (ha : ∀ a ∈ actions, a.IsPlain) {s : Server}
    (hs : s.Healthy) (h : Reflects l s.registry) :
    (actions.foldl (Action.after c) s).Healthy ∧
      Reflects (actions.foldl Ledger.step l) (actions.foldl (Action.after c) s).registry := by
  induction actions generalizing l s with
  | nil => exact ⟨hs, h⟩
  | cons a actions ih =>
    obtain ⟨hs', h'⟩ := h.after c hs (ha a List.mem_cons_self)
    exact ih (fun b hb => ha b (List.mem_cons_of_mem a hb)) hs' h'

/-- **The catalog refines the ledger.**  After any operations on an empty registry, of which some may have
failed, the catalog lists what the ledger of the same operations lists. -/
theorem snapshot_of_run (c : Catalog) (closable : Bool) {actions : List Action}
    (ha : ∀ a ∈ actions, a.IsPlain) :
    (c.snapshot.run.run Server.answer (actions.foldl (Action.after c) (Server.start closable))).result =
      .ok ⟨Ledger.entries (actions.foldl Ledger.step [])⟩ := by
  obtain ⟨hs, h⟩ := reflects_run c ha (s := Server.start closable) ⟨rfl, rfl⟩ reflects_empty
  exact Snapshot.build_of_whole c.endpoint hs h.worth

end Step

section

open Json.Usual

/-- Two namespaces of which the first holds a table: it is created under two spellings, and the first is
dropped with the second before it is created again. -/
theorem snapshot_of_run_orders :
    ∃ (c : Catalog) (actions : List Action) (es : List Entry), (∀ a ∈ actions, a.IsPlain) ∧
      actions.length = 6 ∧
      (c.snapshot.run.run Server.answer (actions.foldl (Action.after c) (Server.start true))).result =
        .ok ⟨es⟩ ∧
      es.map Entry.isNamespace = [false, true] := by
  let properties : Members :=
    [(.text "format", .text "csv"), (.text "external_location", .text "s3://bucket/orders/")]
  let table (name : String) : Action :=
    .createTable (.parts ["sales", name]) (.columns [⟨.text "id", .text "integer"⟩]) .null properties
  let actions : List Action :=
    [.createNamespace (.name "sales") [], .createNamespace (.name "empty") [], table "orders", table "Orders",
      .dropTable (.name "sales.ORDERS"), table "orders"]
  have htable : ∀ name, (table name).IsPlain := by
    intro name
    refine ⟨?_, ⟨.null, Value.within_scalar rfl⟩, ?_⟩
    · intro c hc
      rw [List.mem_singleton.mp hc]
      exact ⟨"id", rfl⟩
    · intro p hp
      simp only [properties, List.mem_cons, List.not_mem_nil, or_false] at hp
      rcases hp with rfl | rfl <;> exact ⟨⟨_, rfl⟩, Value.isWritable_text _⟩
  have hplain : ∀ a ∈ actions, a.IsPlain := by
    intro a ha
    simp only [actions, List.mem_cons, List.not_mem_nil, or_false] at ha
    rcases ha with rfl | rfl | rfl | rfl | rfl | rfl
    · trivial
    · trivial
    · exact htable "orders"
    · exact htable "Orders"
    · trivial
    · exact htable "orders"
  let c : Catalog := ⟨⟨.text "localhost", 9092, .text "default"⟩⟩
  refine ⟨c, actions, _, hplain, rfl, snapshot_of_run c true hplain, ?_⟩
  decide +kernel

end

end SchemaCatalog
