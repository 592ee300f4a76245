/-
  What the operations of a catalog do to a registry when nothing goes wrong.

  `Gives` is the big step of an attempt on healthy servers: from the registry `r` it ends with the outcome
  `x` and leaves the registry `r'`.  Sessions disappear in it, since a healthy server opens and closes them
  without a trace in its registry.  Its rules follow the ways of building attempts, and with them each
  operation has one theorem that says what it gives.
-/
import SchemaCatalog.Catalog
import SchemaCatalog.Proofs.Session
import SchemaCatalog.Proofs.Registry.Server

namespace SchemaCatalog

variable {α β κ : Type} {r r₁ r' : Registry}

/-! ## The big step -/

/-- On a healthy server with the registry `r` the dialogue gives `x` and leaves the registry `r'`. -/
def Dialogue.Gives (d : Dialogue α) (r : Registry) (x : α) (r' : Registry) : Prop :=
  ∀ s : Server, s.Healthy → s.registry = r →
    ∃ s', d.play Server.answer s = (x, s') ∧ s'.Healthy ∧ s'.registry = r'

/-- On a healthy server with the registry `r` the attempt ends with `x` and leaves the registry `r'`. -/
def Attempt.Gives (a : Attempt α) (r : Registry) (x : Except Failure α) (r' : Registry) : Prop :=
  Dialogue.Gives a.run r x r'

namespace Dialogue.Gives

theorem done (a : α) (r : Registry) : Gives (.done a) r a r := fun s hs hr => ⟨s, rfl, hs, hr⟩

theorem pure (a : α) (r : Registry) : Gives (Pure.pure a) r a r := done a r

theorem say (level : Level) (source : Source) (text : String) (r : Registry) :
    Gives (Dialogue.say level source text) r () r := fun s hs hr => ⟨s, rfl, hs, hr⟩

theorem bind {d : Dialogue α} {f : α → Dialogue β} {x : α} {y : β} (hd : Gives d r x r₁)
    (hf : Gives (f x) r₁ y r') : Gives (d >>= f) r y r' := by
  intro s hs hr
  obtain ⟨s₁, hplay, hs₁, hr₁⟩ := hd s hs hr
  obtain ⟨s', hplay', hs', hr'⟩ := hf s₁ hs₁ hr₁
  refine ⟨s', ?_, hs', hr'⟩
  rw [Dialogue.play_bind, hplay]
  exact hplay'

end Dialogue.Gives

namespace Attempt.Gives

/-- What a run on a healthy server leaves. -/
theorem run {a : Attempt α} {x : Except Failure α} (h : Gives a r x r') {s : Server} (hs : s.Healthy)
    (hr : s.registry = r) :
    (a.run.run Server.answer s).result = x ∧ (a.run.run Server.answer s).state.Healthy ∧
      (a.run.run Server.answer s).state.registry = r' := by
  obtain ⟨s', hplay, hs', hr'⟩ := h s hs hr
  have hstate : (a.run.run Server.answer s).state = s' := congrArg Prod.snd hplay
  rw [hstate]
  exact ⟨congrArg Prod.fst hplay, hs', hr'⟩

theorem pure (a : α) (r : Registry) : Gives (Pure.pure a) r (.ok a) r := Dialogue.Gives.done _ r

theorem throw (f : Failure) (r : Registry) : Gives (throw f : Attempt α) r (.error f) r :=
  Dialogue.Gives.done _ r

theorem say (level : Level) (source : Source) (text : String) (r : Registry) :
    Gives (Attempt.say level source text) r (.ok ()) r := fun s hs hr => ⟨s, rfl, hs, hr⟩

/-- What is known without asking leaves the registry alone. -/
theorem lift {x y : Except Failure α} (h : x = y) (r : Registry) : Gives (liftM x) r y r := by
  intro s hs hr
  refine ⟨s, ?_, hs, hr⟩
  rw [h]
  exact Attempt.play_lift Server.answer y s

theorem bind {a : Attempt α} {f : α → Attempt β} {x : α} {y : Except Failure β}
    (ha : Gives a r (.ok x) r₁) (hf : Gives (f x) r₁ y r') : Gives (a >>= f) r y r' := by
  intro s hs hr
  obtain ⟨s₁, hplay, hs₁, hr₁⟩ := ha s hs hr
  obtain ⟨s', hplay', hs', hr'⟩ := hf s₁ hs₁ hr₁
  refine ⟨s', ?_, hs', hr'⟩
  rw [Attempt.play_run] at hplay ⊢
  rw [Attempt.play_bind, hplay]
  exact hplay'

/-- A failure ends what follows. -/
theorem bind_error {a : Attempt α} {f : α → Attempt β} {e : Failure} (ha : Gives a r (.error e) r') :
    Gives (a >>= f) r (.error e) r' := by
  intro s hs hr
  obtain ⟨s', hplay, hs', hr'⟩ := ha s hs hr
  refine ⟨s', ?_, hs', hr'⟩
  rw [Attempt.play_run] at hplay ⊢
  rw [Attempt.play_bind, hplay]

/-- A handler has nothing to do where nothing fails. -/
theorem handle {kind : Kind} {handler : Failure → Attempt α} {a : Attempt α} {x : α}
    (ha : Gives a r (.ok x) r') : Gives (a.handle kind handler) r (.ok x) r' := by
  intro s hs hr
  obtain ⟨s', hplay, hs', hr'⟩ := ha s hs hr
  refine ⟨s', ?_, hs', hr'⟩
  rw [Attempt.play_run] at hplay ⊢
  rw [Attempt.play_handle, hplay]

/-- A handler of its kind takes over from a failure. -/
theorem handle_error {kind : Kind} {handler : Failure → Attempt α} {a : Attempt α} {e : Failure}
    {x : Except Failure α} (ha : Gives a r (.error e) r₁) (hkind : e.kind.isA kind = true)
    (hhandler : Gives (handler e) r₁ x r') : Gives (a.handle kind handler) r x r' := by
  intro s hs hr
  obtain ⟨s₁, hplay, hs₁, hr₁⟩ := ha s hs hr
  obtain ⟨s', hplay', hs', hr'⟩ := hhandler s₁ hs₁ hr₁
  refine ⟨s', ?_, hs', hr'⟩
  rw [Attempt.play_run] at hplay ⊢
  rw [Attempt.play_handle, hplay]
  simp only [if_pos hkind]
  exact hplay'

/-- A call does what the registry does; its failure is told by the session. -/
theorem call (session : Session) {c : Call} {x : Except Failure c.Reply} (h : r.perform c = (x, r')) :
    Gives (session.call c) r (x.mapError session.endpoint.told) r' := by
  intro s hs hr
  obtain ⟨s', hanswer, hs', hr'⟩ := hs.answer_call session.client c
  rw [hr, h] at hanswer hr'
  refine ⟨s', ?_, hs', hr'⟩
  rw [Attempt.play_run, Session.play_call, hanswer]
  cases x <;> rfl

end Attempt.Gives

/-- A session leaves no trace but that of its body. -/
theorem inSession_gives {e : Endpoint} {start : κ} {body : Session → Dialogue (κ × Except Failure α)}
    {x : κ × Except Failure α} (h : ∀ client, (body ⟨e, client⟩).Gives r x r') :
    (inSession e start body).Gives r x r' := by
  intro s hs hr
  obtain ⟨client, s₁, hopening, hs₁, hr₁⟩ := hs.answer_opening e
  obtain ⟨s₂, hplay, hs₂, hr₂⟩ := h client s₁ hs₁ (hr₁.trans hr)
  obtain ⟨s₃, hclosing, hs₃, hr₃⟩ := hs₂.answer_closing client
  have hstart : (Session.start e).play Server.answer s = (.ok ⟨e, client⟩, s₁) := by
    rw [Session.play_start, hopening]
  by_cases hclosable : client.closable = true
  · refine ⟨s₃, ?_, hs₃, hr₃.trans hr₂⟩
    rw [play_inSession, hstart]
    simp only [hplay, Session.play_close, if_pos hclosable, hclosing]
  · refine ⟨s₂, ?_, hs₂, hr₂⟩
    rw [play_inSession, hstart]
    simp only [hplay, Session.play_close, if_neg hclosable]

theorem attemptInSession_gives {e : Endpoint} {body : Session → Attempt α} {x : Except Failure α}
    (h : ∀ client, (body ⟨e, client⟩).Gives r x r') : (attemptInSession e body).Gives r x r' := by
  have hsession : (inSession e () fun session => (fun y => ((), y)) <$> (body session).run).Gives r
      ((), x) r' := by
    refine inSession_gives fun client => ?_
    exact Dialogue.Gives.bind (h client) (Dialogue.Gives.pure ((), x) r')
  intro s hs hr
  obtain ⟨s', hplay, hs', hr'⟩ := hsession s hs hr
  refine ⟨s', ?_, hs', hr'⟩
  rw [Attempt.play_run, play_attemptInSession]
  simp only [hplay]

/-! ## Namespaces -/

namespace Namespaces

theorem create_gives (e : Endpoint) (name : String) (owner : Value) (r : Registry) :
    (Namespaces.create e name owner).Gives r (.ok ()) (r.addGroup name (.ofOwner owner)) := by
  refine attemptInSession_gives fun client => ?_
  refine Attempt.Gives.bind (.say _ _ _ r) ?_
  exact Attempt.Gives.call ⟨e, client⟩ rfl

/-- Dropping succeeds whether or not there is a namespace to drop. -/
theorem drop_gives (e : Endpoint) (name : String) (r : Registry) :
    (Namespaces.drop e name).Gives r (.ok ()) (r.removeGroup name) := by
  refine attemptInSession_gives fun client => ?_
  refine Attempt.Gives.bind (.say _ _ _ r) ?_
  cases hg : r.group? name with
  | some g => exact Attempt.Gives.handle (Attempt.Gives.call ⟨e, client⟩ (Registry.perform_removeGroup hg))
  | none =>
    rw [Registry.removeGroup_of_none hg]
    have hcall := Attempt.Gives.call ⟨e, client⟩ (Registry.perform_of_none (c := .removeGroup name) rfl hg)
    exact Attempt.Gives.handle_error hcall rfl (.say _ _ _ r)

theorem groupNames_gives (e : Endpoint) (r : Registry) :
    (groupNames e).Gives r (.ok (r.groups.map Group.name)) r := by
  refine attemptInSession_gives fun client => ?_
  have hcall : Attempt.Gives (Session.call ⟨e, client⟩ .listGroups) r
      (.ok (r.groups.map fun g => (g.name, g.properties))) r := Attempt.Gives.call ⟨e, client⟩ rfl
  have hnames : (r.groups.map fun g => (g.name, g.properties)).map Prod.fst = r.groups.map Group.name := by
    rw [List.map_map]
    rfl
  refine Attempt.Gives.bind hcall ?_
  rw [← hnames]
  exact Attempt.Gives.pure _ r

/-- All names are listed. -/
theorem names_gives (e : Endpoint) (r : Registry) : (names e).Gives r (.ok (r.groups.map Group.name)) r :=
  Attempt.Gives.handle (groupNames_gives e r)

/-- A namespace is there if some group has its name, letter case aside. -/
theorem has_gives (e : Endpoint) (name : String) (r : Registry) :
    (Namespaces.has e name).Gives r (.ok ((r.groups.map Group.name).any fun g => Text.sameName g name)) r := by
  refine Attempt.Gives.handle (Attempt.Gives.bind (groupNames_gives e r) ?_)
  cases hnames : r.groups.map Group.name with
  | nil => exact Attempt.Gives.bind (.say _ _ _ r) (.pure _ r)
  | cons n ns => exact Attempt.Gives.pure _ r

end Namespaces

/-! ## Tables -/

namespace Tables

/-- Deleting schemas one after the other deletes all of them. -/
theorem deleteEach_gives (session : Session) {name : String} (n : Nat) (vs : List StoredSchema)
    (r : Registry) (hg : (r.group? name).isSome) :
    (deleteEach session name n vs).Gives r (n + vs.length, .ok ())
      (r.deleteVersions name vs) := by
  induction vs generalizing n r with
  | nil => exact Dialogue.Gives.done _ r
  | cons v vs ih =>
    obtain ⟨g, hg⟩ := Option.isSome_iff_exists.mp hg
    have hcall := Attempt.Gives.call session (Registry.perform_deleteVersion hg v.version)
    have hrest := ih (n + 1) (r.deleteVersion name v.version) (by
      rw [Registry.deleteVersion, Registry.group?_updateSchemas_isSome, hg]
      rfl)
    rw [Nat.add_assoc, Nat.add_comm 1, ← List.length_cons (a := v)] at hrest
    exact Dialogue.Gives.bind (.say _ _ _ r) (Dialogue.Gives.bind hcall hrest)

/-- The registry without the versions of a table. -/
def dropped (r : Registry) (ns name : String) : Registry :=
  r.updateSchemas ns fun ss => ss.filter fun s => !isNamed name s

/-- Deleting all versions of a table one after the other deletes nothing else: equal versions are of one
type. -/
theorem deleteVersions_named {ns name : String} {g : Group} (hr : r.Sound) (hg : r.group? ns = some g) :
    r.deleteVersions ns (g.schemas.filter (isNamed name)) = dropped r ns name := by
  rw [Registry.deleteVersions_eq]
  refine Registry.updateSchemas_congr fun g' hg' hname => ?_
  obtain rfl : g' = g := by
    have hsome := Registry.group?_of_mem hr.distinct hg'
    rw [hname, hg] at hsome
    exact (Option.some.inj hsome).symm
  refine List.filter_congr fun s hs => ?_
  cases hs' : isNamed name s with
  | true =>
    -- the version of `s` is among those deleted
    have hmem : s ∈ g'.schemas.filter (isNamed name) := List.mem_filter.mpr ⟨hs, hs'⟩
    rw [Bool.not_true, Bool.eq_false_iff]
    intro hall
    have hne := List.all_eq_true.mp hall s hmem
    rw [beq_self_eq_true] at hne
    cases hne
  | false =>
    rw [Bool.not_false, List.all_eq_true]
    intro v hv
    obtain ⟨hv, hv'⟩ := List.mem_filter.mp hv
    rw [Bool.not_eq_true', beq_eq_false_iff_ne]
    intro hversion
    have htype : s.info.type = v.info.type := by
      rw [← hr.typed g' hg' s hs, ← hr.typed g' hg' v hv, hversion]
    rw [isNamed, htype] at hs'
    rw [isNamed, hs'] at hv'
    cases hv'

/-- Dropping deletes, one after the other, the versions of all types that have the name, and tells how
many. -/
theorem drop_each_gives (e : Endpoint) (ns name : String) (r : Registry) :
    (Tables.drop e ns name).Gives r (.ok ((r.schemasOf ns).countP (isNamed name)))
      (r.deleteVersions ns ((r.schemasOf ns).filter (isNamed name))) := by
  refine Dialogue.Gives.bind (.say _ _ _ r) ?_
  cases hg : r.group? ns with
  | none =>
    -- the versions of a group that is not there cannot be listed, so none is deleted
    have hsession : (inSession e 0 fun s => dropIn s ns name).Gives r (0, .error (.noGroup ns)) r := by
      refine inSession_gives fun client => ?_
      have hcall := Attempt.Gives.call ⟨e, client⟩ (Registry.perform_of_none (c := .getSchemas ns) rfl hg)
      exact Dialogue.Gives.bind hcall (.done _ r)
    rw [Registry.schemasOf_of_none hg]
    exact Dialogue.Gives.bind hsession (Dialogue.Gives.bind (.say _ _ _ r) (.done _ r))
  | some g =>
    have hsession : (inSession e 0 fun s => dropIn s ns name).Gives r
        ((g.schemas.filter (isNamed name)).length, .ok ())
        (r.deleteVersions ns (g.schemas.filter (isNamed name))) := by
      refine inSession_gives fun client => ?_
      have hcall := Attempt.Gives.call ⟨e, client⟩ (Registry.perform_getSchemas hg)
      have hdelete := deleteEach_gives ⟨e, client⟩ 0 (g.schemas.filter (isNamed name)) r
        (Option.isSome_iff_exists.mpr ⟨g, hg⟩)
      rw [Nat.zero_add] at hdelete
      exact Dialogue.Gives.bind hcall hdelete
    rw [Registry.schemasOf_of_some hg, List.countP_eq_length_filter]
    exact Dialogue.Gives.bind hsession (.done _ _)

/-- Nothing else is deleted where versions tell their types. -/
theorem drop_gives (e : Endpoint) (ns name : String) (hr : r.Sound) :
    (Tables.drop e ns name).Gives r (.ok ((r.schemasOf ns).countP (isNamed name))) (dropped r ns name) := by
  have hdrop := drop_each_gives e ns name r
  cases hg : r.group? ns with
  | none =>
    rw [dropped, Registry.updateSchemas_of_none hg]
    rw [Registry.schemasOf_of_none hg] at hdrop ⊢
    exact hdrop
  | some g =>
    rwa [Registry.schemasOf_of_some hg, deleteVersions_named hr hg, ← Registry.schemasOf_of_some hg] at hdrop

section Create

variable [Json.Nesting] {e : Endpoint} {ns name document : String} {columns : List Column} {properties : Members}

/-- A table without a document is not created. -/
theorem create_unwritten {f : Failure}
    (h : Document.encodeTable ⟨.text ns, .text name, columns, properties⟩ = .error f) (r : Registry) :
    (Tables.create e ns name columns properties).Gives r (.error f) r := by
  exact Attempt.Gives.bind_error (Attempt.Gives.lift h r)

/-- A table is stored under exactly the name of its namespace, and not if no group has it. -/
theorem create_homeless
    (h : Document.encodeTable ⟨.text ns, .text name, columns, properties⟩ = .ok document)
    (hg : r.group? ns = none) :
    (Tables.create e ns name columns properties).Gives r (.error (.noGroup ns)) r := by
  refine Attempt.Gives.bind (.lift h r) (attemptInSession_gives fun client => ?_)
  refine Attempt.Gives.bind (.say _ _ _ r) (Attempt.Gives.bind (.say _ _ _ r) ?_)
  exact Attempt.Gives.call ⟨e, client⟩
    (Registry.perform_of_none (c := .addSchema ns (schemaOf name document)) rfl hg)

theorem create_stored {g : Group}
    (h : Document.encodeTable ⟨.text ns, .text name, columns, properties⟩ = .ok document)
    (hg : r.group? ns = some g) :
    (Tables.create e ns name columns properties).Gives r
      (.ok (r.newSchema g (schemaOf name document)).version) (r.addSchema g (schemaOf name document)) := by
  refine Attempt.Gives.bind (.lift h r) (attemptInSession_gives fun client => ?_)
  refine Attempt.Gives.bind (.say _ _ _ r) (Attempt.Gives.bind (.say _ _ _ r) ?_)
  exact Attempt.Gives.call ⟨e, client⟩ (Registry.perform_addSchema hg _)

end Create

end Tables

/-! ## The catalog -/

namespace Catalog

variable (c : Catalog)

theorem createNamespace_gives (ns : Identifier) (properties : Members) (r : Registry) :
    (c.createNamespace ns properties).Gives r (.ok ())
      (r.addGroup ns.toText (.ofOwner (properties.findD "owner" (.text "")))) :=
  Namespaces.create_gives c.endpoint ns.toText _ r

theorem dropNamespace_gives (ns : Identifier) (r : Registry) :
    (c.dropNamespace ns).Gives r (.ok ()) (r.removeGroup ns.toText) :=
  Namespaces.drop_gives c.endpoint ns.toText r

/-- Requiring a namespace asks for its name in any letter case. -/
theorem requireNamespace_gives (ns : String) (r : Registry) :
    (c.requireNamespace (.name ns)).Gives r
      (if (r.groups.map Group.name).any fun g => Text.sameName g ns then .ok () else .error (.noNamespace ns))
      r := by
  have hhas := Namespaces.has_gives c.endpoint ns r
  refine Attempt.Gives.bind hhas ?_
  cases (r.groups.map Group.name).any fun g => Text.sameName g ns with
  | true => exact Attempt.Gives.pure () r
  | false => exact Attempt.Gives.throw (.noNamespace ns) r

/-- A namespace that is there under exactly the name is there. -/
theorem requireNamespace_of_some {ns : String} {g : Group} (hg : r.group? ns = some g) :
    (c.requireNamespace (.name ns)).Gives r (.ok ()) r := by
  have hrequire := c.requireNamespace_gives ns r
  have hany : ((r.groups.map Group.name).any fun g => Text.sameName g ns) = true := by
    rw [List.any_eq_true]
    exact ⟨ns, Registry.group?_isSome.mp (Option.isSome_iff_exists.mpr ⟨g, hg⟩), beq_self_eq_true _⟩
  rwa [if_pos hany] at hrequire

section Create

variable [Json.Nesting] {i : Identifier} {columns : TableColumns} {location : Value} {properties : Members}

/-- A table is created if its columns have names, it has a name itself, its document can be written, and
its namespace is there under exactly its name. -/
theorem createTable_stored {cs : List Column} {name document : String} {g : Group}
    (hcolumns : columns.toColumns = .ok cs) (hname : i.tableName = .ok name)
    (hdocument : Document.encodeTable
      ⟨.text i.tableNamespace, .text name, cs, withLocation location properties⟩ = .ok document)
    (hg : r.group? i.tableNamespace = some g) :
    (c.createTable i columns location properties).Gives r
      (.ok (r.newSchema g (Tables.schemaOf name document)).version)
      (r.addSchema g (Tables.schemaOf name document)) := by
  refine Attempt.Gives.bind (c.requireNamespace_of_some hg) ?_
  refine Attempt.Gives.bind (.lift hcolumns r) (Attempt.Gives.bind (.lift hname r) ?_)
  exact Tables.create_stored hdocument hg

/-- Otherwise the creation fails and changes nothing. -/
theorem createTable_failed
    (h : ∀ cs name document g, columns.toColumns = .ok cs → i.tableName = .ok name →
      Document.encodeTable ⟨.text i.tableNamespace, .text name, cs, withLocation location properties⟩ =
        .ok document → r.group? i.tableNamespace ≠ some g) :
    ∃ f, (c.createTable i columns location properties).Gives r (.error f) r := by
  have hrequire := c.requireNamespace_gives i.tableNamespace r
  split at hrequire
  · -- what is missing shows in the order in which it is asked for: columns, name, document, group
    cases hcolumns : columns.toColumns with
    | error f => exact ⟨f, Attempt.Gives.bind hrequire (Attempt.Gives.bind_error (.lift hcolumns r))⟩
    | ok cs =>
      have hcs := Attempt.Gives.lift hcolumns r
      cases hname : i.tableName with
      | error f =>
        exact ⟨f, Attempt.Gives.bind hrequire (Attempt.Gives.bind hcs (Attempt.Gives.bind_error (.lift hname r)))⟩
      | ok name =>
        have hn := Attempt.Gives.lift hname r
        have hcreate : ∃ f, (Tables.create c.endpoint i.tableNamespace name cs
            (withLocation location properties)).Gives r (.error f) r := by
          cases hdocument : Document.encodeTable
              ⟨.text i.tableNamespace, .text name, cs, withLocation location properties⟩ with
          | error f => exact ⟨f, Tables.create_unwritten hdocument r⟩
          | ok document =>
            refine ⟨_, Tables.create_homeless hdocument ?_⟩
            rw [Option.eq_none_iff_forall_ne_some]
            exact fun g => h cs name document g hcolumns hname hdocument
        obtain ⟨f, hf⟩ := hcreate
        exact ⟨f, Attempt.Gives.bind hrequire (Attempt.Gives.bind hcs (Attempt.Gives.bind hn hf))⟩
  · exact ⟨_, Attempt.Gives.bind_error hrequire⟩

end Create

theorem dropTable_gives {i : Identifier} {name : String} (hname : i.tableName = .ok name) (hr : r.Sound) :
    (c.dropTable i).Gives r (.ok ()) (Tables.dropped r i.tableNamespace name) := by
  refine Attempt.Gives.bind (.lift hname r) ?_
  exact Attempt.Gives.bind (Tables.drop_gives c.endpoint i.tableNamespace name hr) (.pure () _)

/-- The empty identifier has no table to drop. -/
theorem dropTable_nameless {i : Identifier} {f : Failure} (hname : i.tableName = .error f) (r : Registry) :
    (c.dropTable i).Gives r (.error f) r := by
  exact Attempt.Gives.bind_error (.lift hname r)

end Catalog

end SchemaCatalog
