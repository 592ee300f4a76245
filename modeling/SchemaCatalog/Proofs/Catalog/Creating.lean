/-
  Creating a table is all or nothing.

  A table is created in steps: its namespace is looked for, its columns are translated, it is given a name, its
  document is written, and in a second session that is stored.  Only the last step changes the registry, and
  nothing comes after it but the closing of its session.  So whatever fails before leaves the registry as it
  was, and if the closing does not fail, neither does what has been stored.

  `Writes` says what the document of a new table is.  Without one the creation only reads, so nothing is even
  asked to be stored.
-/
import SchemaCatalog.Proofs.Failing
import SchemaCatalog.Proofs.Catalog.Effects

namespace SchemaCatalog

variable {r : Registry} {P : Point → Failure → Prop}

/-- A table is stored under exactly the name of its namespace, or the creation fails and nothing changes.  Where
the table is stored, the creation succeeds unless its client cannot be closed. -/
theorem Tables.create_ends [Json.Nesting] {e : Endpoint} {ns name : String} {columns : List Column}
    {properties : Members} :
    (Tables.create e ns name columns properties).Ends P r fun x r' =>
      (∃ document g, Document.encodeTable ⟨.text ns, .text name, columns, properties⟩ = .ok document ∧
        r.group? ns = some g ∧ r' = r.addSchema g (schemaOf name document) ∧
        (x = .ok (r.newSchema g (schemaOf name document)).version ∨ ∃ f, P .closing f ∧ x = .error f)) ∨
      (∃ f, x = .error f) ∧ r' = r := by
  refine Attempt.Ends.lift_bind (fun document hdocument => ?_) fun f _ => .inr ⟨⟨f, rfl⟩, rfl⟩
  refine attemptInSession_ends (fun f _ => .inr ⟨⟨_, rfl⟩, rfl⟩) ?_ fun client => ?_
  · -- a failed closing hides the outcome, and leaves what has been stored
    rintro f hf x r' (⟨document, g, hdocument, hg, hr', -⟩ | ⟨-, hr'⟩)
    · exact .inl ⟨document, g, hdocument, hg, hr', .inr ⟨f, hf, rfl⟩⟩
    · exact .inr ⟨⟨f, rfl⟩, hr'⟩
  refine Attempt.Ends.say_bind (Attempt.Ends.say_bind ?_)
  refine (Attempt.Ends.call ⟨e, client⟩ (.addSchema ns (schemaOf name document))).mono ?_
  rintro x r' (⟨y, hperform, rfl⟩ | ⟨⟨f, -, rfl⟩, rfl⟩)
  · cases hg : r.group? ns with
    | none =>
      rw [Registry.perform_of_none rfl hg] at hperform
      cases hperform
      exact .inr ⟨⟨_, rfl⟩, rfl⟩
    | some g =>
      rw [Registry.perform_addSchema hg] at hperform
      cases hperform
      exact .inl ⟨document, g, hdocument, rfl, rfl, .inl rfl⟩
  · exact .inr ⟨⟨_, rfl⟩, rfl⟩

namespace Catalog

variable (c : Catalog)

/-- Requiring a namespace only reads. -/
theorem requireNamespace_asks (ns : Identifier) :
    Attempt.AsksOnly Request.IsReading (c.requireNamespace ns) := by
  refine Attempt.AsksOnly.bind (Namespaces.has_asks c.endpoint ns.toText) fun there => ?_
  cases there with
  | true => exact .pure ()
  | false => exact .throw _

section

variable [Json.Nesting] {i : Identifier} {columns : TableColumns} {location : Value} {properties : Members}

/-- The document under which a new table is stored, and its name: columns and name are there, and the document
can be written. -/
def Writes (i : Identifier) (columns : TableColumns) (location : Value) (properties : Members)
    (name document : String) : Prop :=
  ∃ cs, columns.toColumns = .ok cs ∧ i.tableName = .ok name ∧
    Document.encodeTable ⟨.text i.tableNamespace, .text name, cs, withLocation location properties⟩ =
      .ok document

/-- Whether there is a document can be found out by writing it. -/
theorem exists_writes {cs : List Column} {name : String} (hcs : columns.toColumns = .ok cs)
    (hname : i.tableName = .ok name)
    (h : (Document.encodeTable
      ⟨.text i.tableNamespace, .text name, cs, withLocation location properties⟩).toOption.isSome) :
    ∃ document, Writes i columns location properties name document := by
  obtain ⟨document, hdocument⟩ := Option.isSome_iff_exists.mp h
  exact ⟨document, cs, hcs, hname, eq_ok_of_toOption hdocument⟩

/-- A creation with nothing to write only reads. -/
theorem createTable_asks (h : ∀ name document, ¬Writes i columns location properties name document) :
    Attempt.AsksOnly Request.IsReading (c.createTable i columns location properties) := by
  refine .bind (c.requireNamespace_asks _) fun _ => .lift_bind fun cs hcs => .lift_bind fun name hname => ?_
  exact .lift_bind fun document hdocument => absurd ⟨cs, hcs, hname, hdocument⟩ (h name document)

/-- Whatever fails, a creation stores its document and, unless its client cannot be closed, succeeds; or it
fails and changes nothing. -/
theorem createTable_leaves :
    (c.createTable i columns location properties).Ends P r fun x r' =>
      (∃ name document g, Writes i columns location properties name document ∧
        r.group? i.tableNamespace = some g ∧ r' = r.addSchema g (Tables.schemaOf name document) ∧
        (x = .ok (r.newSchema g (Tables.schemaOf name document)).version ∨ ∃ f, P .closing f ∧ x = .error f)) ∨
      (∃ f, x = .error f) ∧ r' = r := by
  have hrequire : (c.requireNamespace (.name i.tableNamespace)).Ends P r fun _ r' => r = r' :=
    (Dialogue.Ends.of_reading (c.requireNamespace_asks _)).mono fun _ _ h => h.symm
  refine Attempt.Ends.bind hrequire ?_ fun f r' hr' => .inr ⟨⟨f, rfl⟩, hr'.symm⟩
  rintro _ _ rfl
  refine Attempt.Ends.lift_bind (fun cs hcs => ?_) fun f _ => .inr ⟨⟨f, rfl⟩, rfl⟩
  refine Attempt.Ends.lift_bind (fun name hname => ?_) fun f _ => .inr ⟨⟨f, rfl⟩, rfl⟩
  refine Tables.create_ends.mono fun x r' hends => hends.imp_left ?_
  rintro ⟨document, g, hdocument, hstored⟩
  exact ⟨name, document, g, ⟨cs, hcs, hname, hdocument⟩, hstored⟩

/-- Where every client can be closed, what is stored is a success. -/
theorem createTable_ends (hclosing : ∀ f, ¬P .closing f) :
    (c.createTable i columns location properties).Ends P r fun x r' =>
      (∃ name document g, Writes i columns location properties name document ∧
        r.group? i.tableNamespace = some g ∧
        x = .ok (r.newSchema g (Tables.schemaOf name document)).version ∧
        r' = r.addSchema g (Tables.schemaOf name document)) ∨
      (∃ f, x = .error f) ∧ r' = r := by
  refine c.createTable_leaves.mono fun x r' hleaves => hleaves.imp_left ?_
  rintro ⟨name, document, g, hwrites, hg, hr', hx | ⟨f, hf, -⟩⟩
  · exact ⟨name, document, g, hwrites, hg, hx, hr'⟩
  · exact absurd hf (hclosing f)

/-- **Creating a table is all or nothing.**  With any failures but at the closing of a client, it either
succeeds, and the registry has one more version at the end of the group under exactly the namespace's name, of
the table's name and with its document, and is otherwise as it was; or it fails, and the registry is as it was.
If there is no document to store, no server is asked to store one. -/
theorem createTable_all_or_nothing {s : Server} (hs : ∀ f ∈ s.faults, f.point ≠ .closing) :
    let out := (c.createTable i columns location properties).run.run Server.answer s
    let r := s.registry
    ((∃ name document stored, Writes i columns location properties name document ∧
        (r.group? i.tableNamespace).isSome ∧ stored.info.type = name ∧
        stored.info.data = .bytes (Text.Utf8.encode document.toList) ∧ out.result = .ok stored.version ∧
        out.state.registry.schemasOf i.tableNamespace = r.schemasOf i.tableNamespace ++ [stored] ∧
        r.SameBut i.tableNamespace out.state.registry) ∨
      ∃ f, out.result = .error f ∧ out.state.registry = r) ∧
    ((∀ name document, ¬Writes i columns location properties name document) →
      ∃ asked, out.state.requests = asked ++ s.requests ∧
        ∀ client group info, .call client (.addSchema group info) ∉ asked) := by
  intro out r
  constructor
  · have hfaults : s.FaultsAre fun point _ => point ≠ .closing := hs
    obtain ⟨name, document, g, hwrites, hg, hx, hr'⟩ | ⟨⟨f, hx⟩, hr'⟩ :=
      (c.createTable_ends fun _ h => h rfl).run hfaults
    · refine .inl ⟨name, document, _, hwrites, Option.isSome_iff_exists.mpr ⟨g, hg⟩, rfl, rfl, hx, ?_, ?_⟩
      · rw [hr', Registry.schemasOf_addSchema hg]
      · rw [hr', ← Registry.name_of_group? hg]
        exact Registry.sameBut_addSchema g _
    · exact .inr ⟨f, hx, hr'⟩
  · intro hnothing
    obtain ⟨asked, hrequests, hall⟩ := (c.createTable_asks hnothing).play_requests s
    refine ⟨asked, hrequests, fun client group info hmem => ?_⟩
    cases hall _ hmem

end

section

open Json.Usual

/-- The version is refused when it is to be stored, for a reason of no known kind: the group stays empty. -/
theorem createTable_all_or_nothing_refused :
    ∃ (c : Catalog) (i : Identifier) (columns : TableColumns) (properties : Members) (s : Server),
      (∀ f ∈ s.faults, f.point ≠ .closing) ∧ (∃ document, Writes i columns .null properties "orders" document) ∧
      s.registry.schemasOf i.tableNamespace = [] ∧
      let out := (c.createTable i columns .null properties).run.run Server.answer s
      (∃ f, out.result = .error f) ∧ out.state.registry = s.registry := by
  let r : Registry := ⟨[⟨"sales", .ofOwner .null, []⟩], 0⟩
  let f : Fault := ⟨.addSchema, some "sales", .raised .runtime "refused", 0, 1⟩
  let c : Catalog := ⟨⟨.text "localhost", 9092, .text "default"⟩⟩
  let i : Identifier := .parts ["sales", "orders"]
  let columns : TableColumns := .columns [⟨.text "id", .text "BIGINT"⟩]
  let properties : Members :=
    [(.text "format", .text "csv"), (.text "external_location", .text "s3://mybucket/orders/")]
  let s : Server := { Server.start true with registry := r, faults := [f] }
  have hs : ∀ f ∈ s.faults, f.point ≠ .closing := by
    intro g hg
    obtain rfl : g = f := List.mem_singleton.mp hg
    decide
  have hwrites : ∃ document, Writes i columns .null properties "orders" document :=
    exists_writes rfl rfl (by decide +kernel)
  have hrefused : ((c.createTable i columns .null properties).run.run Server.answer s).result.toOption = none := by
    decide +kernel
  refine ⟨c, i, columns, properties, s, hs, hwrites, by decide +kernel, ?_⟩
  obtain ⟨_, _, stored, -, -, -, -, hresult, -⟩ | ⟨f, hresult, hr⟩ := (c.createTable_all_or_nothing hs).1
  · rw [hresult] at hrefused
    cases hrefused
  · exact ⟨⟨f, hresult⟩, hr⟩

end

end Catalog

end SchemaCatalog
