/-
  Reading a catalog that holds documents of any origin.

  Tables are listed and schemas loaded from one listing.  There is none if the document behind the entries that
  were read nests too deep, and then every read of it fails as it does.  Otherwise no document can spoil what is
  done with the listing later but for its two names.  A document may name any value as its namespace and its
  table, and only texts can be compared.  So with nothing wrong a read has a result, or nothing is there to read,
  or it fails for want of small letters; and this last if and only if

    - some listed table, in whatever group, names a namespace that is no text, or
    - a schema is looked for, and of the tables in its namespace one names a table that is no text before any
      has the name.

  The columns of a document never make a read fail (`Entry.exists_schema`).
-/
import SchemaCatalog.Proofs.Snapshot.Lookup
import SchemaCatalog.Proofs.Snapshot.Schema
import SchemaCatalog.Proofs.Document.RoundTrip

namespace SchemaCatalog

variable {r : Registry}

/-! ## Names that cannot be compared -/

namespace Registry

variable [Json.Nesting]

/-- Some listed table names a namespace that is no text. -/
def HasUnplaced (r : Registry) : Prop := ∃ e ∈ r.tables, ¬e.ns.IsText

/-- Of the tables in a namespace one names a table that is no text, and those before have other names. -/
def HasUnnamed (r : Registry) (ns name : String) : Prop :=
  ∃ before e after, r.tables.filter (fun e => e.ns.isCalled ns) = before ++ e :: after ∧ ¬e.table.IsText ∧
    ∀ b ∈ before, b.table.IsText ∧ b.table.isCalled name = false

theorem hasUnplaced_iff : r.HasUnplaced ↔ ¬(r.tables.all fun e => e.ns.hasCase) = true := by
  rw [List.all_eq_true, HasUnplaced]
  simp only [not_forall]
  refine exists_congr fun e => ⟨?_, ?_⟩
  · rintro ⟨he, htext⟩
    exact ⟨he, fun hcase => htext ((hasCase_of_mem_tables he).1.mp hcase)⟩
  · rintro ⟨he, hcase⟩
    exact ⟨he, fun htext => hcase ((hasCase_of_mem_tables he).1.mpr htext)⟩

/-- The tables of a namespace are found unless a listed table names none that is a text. -/
theorem tables_placed (h : ¬r.HasUnplaced) (ns : String) :
    Snapshot.tables ⟨r.listing⟩ (.text ns) = .ok (r.tables.filter fun e => e.ns.isCalled ns) := by
  rw [Snapshot.tables_eq]
  exact if_pos (not_not.mp fun hcase => h (hasUnplaced_iff.mpr hcase))

theorem tables_unplaced (h : r.HasUnplaced) (ns : String) :
    Snapshot.tables ⟨r.listing⟩ (.text ns) = .error .lacking := by
  rw [Snapshot.tables_eq]
  exact if_neg (hasUnplaced_iff.mp h)

theorem hasUnnamed_iff {ns name : String} :
    r.HasUnnamed ns name ↔ Snapshot.Unnamed name (r.tables.filter fun e => e.ns.isCalled ns) := by
  refine exists_congr fun before => exists_congr fun e => exists_congr fun after =>
    and_congr_right fun hsplit => ?_
  have hcase : ∀ b ∈ before ++ e :: after, (b.table.hasCase = true ↔ b.table.IsText) := fun b hb =>
    (hasCase_of_mem_tables (List.mem_of_mem_filter (hsplit ▸ hb))).2
  refine and_congr ?_ (forall_congr' fun b => forall_congr' fun hb => ?_)
  · rw [← hcase e (List.mem_append_right _ List.mem_cons_self), Bool.not_eq_true]
  · rw [hcase b (List.mem_append_left _ hb)]

/-- A listed table has a schema: it was read from a document. -/
theorem exists_schema_of_mem_tables {e : Entry} (h : e ∈ r.tables) : ∃ schema, e.schema = .ok schema := by
  obtain ⟨d, t, ht, rfl⟩ := exists_of_mem_tables h
  have htable := (List.mem_filter.mp h).2
  rw [Bool.not_eq_true'] at htable
  exact Entry.exists_schema ht htable

/-- Looking for a table fails for a name that cannot be compared, or finds one of the listed tables or none. -/
theorem find?_cases (r : Registry) (ns name : String) :
    Snapshot.find? ⟨r.listing⟩ (.text ns) (.text name) = .error .lacking ∧ (r.HasUnplaced ∨ r.HasUnnamed ns name) ∨
      ¬(r.HasUnplaced ∨ r.HasUnnamed ns name) ∧
        ∃ e?, Snapshot.find? ⟨r.listing⟩ (.text ns) (.text name) = .ok e? ∧ ∀ e, e? = some e → e ∈ r.tables := by
  unfold Snapshot.find?
  by_cases hunplaced : r.HasUnplaced
  · rw [tables_unplaced hunplaced]
    exact .inl ⟨rfl, .inl hunplaced⟩
  · rw [tables_placed hunplaced, hasUnnamed_iff]
    simp only [hunplaced, false_or]
    refine (Snapshot.firstNamed_cases name _).imp_right fun ⟨hnot, e?, hfound, hmem⟩ => ?_
    exact ⟨hnot, e?, hfound, fun e he => List.mem_of_mem_filter (hmem e he)⟩

end Registry

/-! ## What the reads give -/

/-- The read has a result, or it tells that there is no such namespace or no such table. -/
def Answers {α : Type} : Except Failure α → Bool
  | .ok _ => true
  | .error f => f.kind.isA .noSuchNamespace || f.kind.isA .noSuchTable

/-- A read has failed for a document that nests too deep. -/
def TellsDepth {α : Type} (x : Except Failure α) : Prop := ∃ f, x = .error f ∧ f.kind = .tooDeep

/-- A read ends in one of three ways: it answers; or it fails for want of small letters, which is if and only if
`lacking` holds; or for the depth of a document, which is if and only if `deep` does. -/
def EndsBy {α : Type} (x : Except Failure α) (lacking deep : Prop) : Prop :=
  (Answers x = true ∨ x = .error .lacking ∨ TellsDepth x) ∧ (x = .error .lacking ↔ lacking) ∧ (TellsDepth x ↔ deep)

namespace EndsBy

variable {α : Type} {x : Except Failure α} {p q : Prop}

/-- No two of the ways are one. -/
theorem answered (h : Answers x = true) (hlacking : ¬p) (hdeep : ¬q) : EndsBy x p q := by
  refine ⟨.inl h, ⟨?_, fun h => absurd h hlacking⟩, ⟨?_, fun h => absurd h hdeep⟩⟩
  · rintro rfl
    cases h
  · rintro ⟨f, rfl, hf⟩
    simp [Answers, hf, Kind.isA, Kind.parent?] at h

theorem lacking (h : p) (hdeep : ¬q) : EndsBy (.error .lacking : Except Failure α) p q := by
  refine ⟨.inr (.inl rfl), ⟨fun _ => h, fun _ => rfl⟩, ⟨?_, fun h => absurd h hdeep⟩⟩
  rintro ⟨f, hf, hkind⟩
  cases hf
  cases hkind

theorem deep (h : TellsDepth x) (hlacking : ¬p) (hdeep : q) : EndsBy x p q := by
  refine ⟨.inr (.inr h), ⟨?_, fun h => absurd h hlacking⟩, ⟨fun _ => hdeep, fun _ => h⟩⟩
  rintro rfl
  obtain ⟨f, hf, hkind⟩ := h
  cases hf
  cases hkind

end EndsBy

namespace Catalog

variable (c : Catalog)

/-- Whether a group has the name of a namespace, letter case aside. -/
def isThere (r : Registry) (ns : String) : Bool := (r.groups.map Group.name).any fun g => Text.sameName g ns

section Gives

variable [Json.Nesting]

theorem listTables_gives (ns : Identifier) (r : Registry) :
    (c.listTables ns).Gives r
      (if isThere r ns.toText then
        r.listed.bind fun l =>
          (l.tables (.text ns.toText)).map fun es => es.map fun e => (ns.toParts, e.table)
      else .error (.noNamespace ns.toText)) r := by
  have hrequire : (c.requireNamespace ns).Gives r _ r := c.requireNamespace_gives ns.toText r
  cases hthere : isThere r ns.toText with
  | false =>
    rw [isThere] at hthere
    rw [hthere] at hrequire
    exact Attempt.Gives.bind_error hrequire
  | true =>
    rw [isThere] at hthere
    rw [hthere] at hrequire
    refine Attempt.Gives.bind hrequire ?_
    have hbuild := Snapshot.build_gives c.endpoint r
    cases hlisted : r.listed with
    | error f => exact Attempt.Gives.bind_error (hlisted ▸ hbuild)
    | ok l =>
      refine Attempt.Gives.bind (hlisted ▸ hbuild) ?_
      have htables : Attempt.Gives (liftM (l.tables (.text (Text.joinDots ns.toParts)))) r
          (l.tables (.text ns.toText)) r := .lift (by rw [ns.joinDots_toParts]) r
      rw [if_pos rfl, Except.bind]
      cases hfound : l.tables (.text ns.toText) with
      | error f => exact Attempt.Gives.bind_error (hfound ▸ htables)
      | ok es => exact Attempt.Gives.bind (hfound ▸ htables) (.pure _ r)

theorem tableSchema_gives {i : Identifier} {name : String} (hname : i.tableName = .ok name) (r : Registry) :
    (c.tableSchema i).Gives r
      (r.listed.bind fun l =>
        match l.find? (.text i.tableNamespace) (.text name) with
        | .error f => .error f
        | .ok none => .error (.noTable i.tableNamespace name)
        | .ok (some e) => e.schema) r := by
  refine Attempt.Gives.bind (.lift hname r) ?_
  have hbuild := Snapshot.build_gives c.endpoint r
  cases hlisted : r.listed with
  | error f => exact Attempt.Gives.bind_error (hlisted ▸ hbuild)
  | ok l =>
    refine Attempt.Gives.bind (hlisted ▸ hbuild) ?_
    have hfind := Attempt.Gives.lift (rfl : l.find? (.text i.tableNamespace) (.text name) = _) r
    rw [Except.bind]
    generalize l.find? (.text i.tableNamespace) (.text name) = found at hfind ⊢
    cases found with
    | error f => exact Attempt.Gives.bind_error hfind
    | ok e? =>
      refine Attempt.Gives.bind hfind ?_
      cases e? with
      | none => exact Attempt.Gives.throw _ r
      | some e => exact Attempt.Gives.lift rfl r

/-! ## How the reads end -/

/-- Listing fails for a document that nests too deep, or for a namespace that cannot be compared, of whatever
table. -/
theorem listTables_ends (ns : Identifier) {s : Server} (hs : s.Healthy) :
    let r := s.registry
    EndsBy ((c.listTables ns).run.run Server.answer s).result
      (isThere r ns.toText = true ∧ ¬r.IsTooDeep ∧ r.HasUnplaced) (isThere r ns.toText = true ∧ r.IsTooDeep) := by
  intro r
  have hlisted : ((c.listTables ns).run.run Server.answer s).result = _ :=
    ((c.listTables_gives ns s.registry).run hs rfl).1
  rw [hlisted]
  cases isThere s.registry ns.toText with
  | false => exact .answered rfl (fun h => (by cases h.1)) fun h => (by cases h.1)
  | true =>
    rw [if_pos rfl]
    obtain ⟨hdeep, hbuild⟩ | ⟨hdeep, why, hbuild, hwhy⟩ := s.registry.listed_cases
    · rw [hbuild, Except.bind]
      by_cases hunplaced : s.registry.HasUnplaced
      · rw [Registry.tables_unplaced hunplaced]
        exact .lacking ⟨rfl, hdeep, hunplaced⟩ fun h => hdeep h.2
      · rw [Registry.tables_placed hunplaced]
        exact .answered rfl (fun h => hunplaced h.2.2) fun h => hdeep h.2
    · rw [hbuild]
      exact .deep ⟨_, rfl, hwhy⟩ (fun h => h.2.1 hdeep) ⟨rfl, hdeep⟩

/-- Loading fails for that, too, and for a table in the namespace that cannot be told from the one it looks for. -/
theorem tableSchema_ends {i : Identifier} {name : String} (hname : i.tableName = .ok name) {s : Server}
    (hs : s.Healthy) :
    let r := s.registry
    EndsBy ((c.tableSchema i).run.run Server.answer s).result
      (¬r.IsTooDeep ∧ (r.HasUnplaced ∨ r.HasUnnamed i.tableNamespace name)) r.IsTooDeep := by
  intro r
  have hloaded : ((c.tableSchema i).run.run Server.answer s).result = _ :=
    ((c.tableSchema_gives hname s.registry).run hs rfl).1
  rw [hloaded]
  obtain ⟨hdeep, hbuild⟩ | ⟨hdeep, why, hbuild, hwhy⟩ := s.registry.listed_cases
  · rw [hbuild, Except.bind]
    rcases s.registry.find?_cases i.tableNamespace name with ⟨hfind, hbad⟩ | ⟨hgood, e?, hfind, hmem⟩
    · rw [hfind]
      exact .lacking ⟨hdeep, hbad⟩ hdeep
    · rw [hfind]
      cases e? with
      | none => exact .answered rfl (fun h => hgood h.2) hdeep
      | some e =>
        obtain ⟨schema, hschema⟩ := Registry.exists_schema_of_mem_tables (hmem e rfl)
        simp only [hschema]
        exact .answered rfl (fun h => hgood h.2) hdeep
  · rw [hbuild]
    exact .deep ⟨_, rfl, hwhy⟩ (fun h => h.1 hdeep) hdeep

/-- **Reads over documents of any origin.**  With nothing wrong a read has a result, or tells that nothing is
there, or fails for want of small letters, or fails for a document that nests too deep.  If the document behind
the entries that can be read nests too deep, every read of the catalog fails for that, but for listing the tables
of a namespace that is not there.  Otherwise, listing the tables of a namespace fails for want of small letters if
and only if the namespace is there and some listed table, of whatever namespace, names a namespace that is no
text; loading a schema if and only if there is such a table, or one in the namespace names a table that is no text
before any has the name. -/
theorem reads_of_any_origin (ns : Identifier) {i : Identifier} {name : String} (hname : i.tableName = .ok name)
    {s : Server} (hs : s.Healthy) :
    let listed := ((c.listTables ns).run.run Server.answer s).result
    let loaded := ((c.tableSchema i).run.run Server.answer s).result
    let r := s.registry
    EndsBy listed (isThere r ns.toText = true ∧ ¬r.IsTooDeep ∧ r.HasUnplaced)
      (isThere r ns.toText = true ∧ r.IsTooDeep) ∧
    EndsBy loaded (¬r.IsTooDeep ∧ (r.HasUnplaced ∨ r.HasUnnamed i.tableNamespace name)) r.IsTooDeep :=
  ⟨c.listTables_ends ns hs, c.tableSchema_ends hname hs⟩

end Gives

section

open Json.Usual

/-- The document of a table without columns, with any values for its names. -/
def naming (database tablename : Value) : Value :=
  let textOf (v : Value) : String := (Document.written v).toOption.getD ""
  let comment := textOf (.object [(.text "database", database), (.text "tablename", tablename)])
  .bytes (Text.Utf8.encode (textOf (Document.root comment [])).toList)

/-- It is read as a table that has them, if they come back from being written. -/
theorem decode_naming {database tablename : Value} (hdatabase : database.IsWritable)
    (htablename : tablename.IsWritable) :
    ∃ t, Document.decode (naming database tablename) = .ok t ∧ t.database = database ∧
      t.tablename = tablename := by
  let metadata : List (String × Value) := [("database", database), ("tablename", tablename)]
  have hmetadata : (Value.object (Members.named metadata)).Plain := by
    refine .object metadata (by simp [metadata]) fun m hm => ?_
    simp only [metadata, List.mem_cons, List.not_mem_nil, or_false] at hm
    rcases hm with rfl | rfl
    · exact hdatabase.1
    · exact htablename.1
  have hroom : (Value.object (Members.named metadata)).Within Json.Nesting.deepest := by
    refine Value.within_named.mpr ⟨Json.Nesting.deepest - 1, rfl, fun m hm => ?_⟩
    simp only [metadata, List.mem_cons, List.not_mem_nil, or_false] at hm
    rcases hm with rfl | rfl
    · exact hdatabase.2
    · exact htablename.2
  obtain ⟨comment, hcomment⟩ := Document.exists_written hmetadata hroom
  have hknown : ∀ c ∈ ([] : List (String × Value)), Column.IsKnown c.2 := fun c hc => absurd hc List.not_mem_nil
  have hplain : (Document.root comment []).Plain :=
    @Document.plain_root comment [] List.nodup_nil hknown
  obtain ⟨d, hd⟩ := Document.exists_written hplain (Document.within_root comment hknown)
  have hnaming : naming database tablename = .bytes (Text.Utf8.encode d.toList) := by
    have hmembers : Value.object [(.text "database", database), (.text "tablename", tablename)] =
        .object (Members.named metadata) := rfl
    simp only [naming, hmembers, hcomment, hd, Except.toOption, Option.getD_some]
  have hcolumns : Document.readColumns (Members.named []) = .ok [] := rfl
  have hmetadata := Document.read_of_written hmetadata hcomment
  rw [hnaming]
  exact ⟨_, Document.decode_root (Document.read_of_written hplain hd) hmetadata
    (by simp [metadata, Members.find?, Members.get?_cons_text])
    (by simp [metadata, Members.find?, Members.get?_cons_text]) hcolumns, rfl, rfl⟩

/-- Two groups with a table each; that of the second names an integer as its namespace. -/
def spoiled : Registry :=
  let orders : SchemaInfo := ⟨"orders", jsonFormat, naming (.text "good") (.text "orders"), []⟩
  let t : SchemaInfo := ⟨"t", jsonFormat, naming (.int 5) (.text "t"), []⟩
  ⟨[⟨"good", .ofOwner .null, [⟨orders, ⟨"orders", 0, 0⟩⟩]⟩, ⟨"other", .ofOwner .null, [⟨t, ⟨"t", 0, 1⟩⟩]⟩], 2⟩

theorem hasUnplaced_spoiled : ¬spoiled.IsTooDeep ∧ spoiled.HasUnplaced := by
  obtain ⟨t, ht, -, htablename⟩ := decode_naming (Value.isWritable_text "good") (Value.isWritable_text "orders")
  obtain ⟨t', ht', hdatabase', htablename'⟩ := decode_naming ⟨.int 5 (by decide), Value.within_scalar rfl⟩
    (Value.isWritable_text "t")
  have hpositions : spoiled.positions = [.table "good" "orders", .table "other" "t"] := by
    show (["orders"].eraseDups).map (Position.table "good") ++
      ((["t"].eraseDups).map (Position.table "other") ++ []) = _
    simp [List.eraseDups_cons]
  let orders : SchemaInfo := ⟨"orders", jsonFormat, naming (.text "good") (.text "orders"), []⟩
  let other : SchemaInfo := ⟨"t", jsonFormat, naming (.int 5) (.text "t"), []⟩
  have hlatest : spoiled.latestOf "good" "orders" = some ⟨orders, ⟨"orders", 0, 0⟩⟩ := rfl
  have hlatest' : spoiled.latestOf "other" "t" = some ⟨other, ⟨"t", 0, 1⟩⟩ := rfl
  have hentries : spoiled.positions.map spoiled.entryAt = [.ofTable t, .ofTable t'].map some := by
    rw [hpositions, List.map_cons, List.map_cons, List.map_nil, Registry.entryAt_table hlatest ht,
      Registry.entryAt_table hlatest' ht']
    rfl
  refine ⟨Registry.not_isTooDeep_of_whole hentries, .ofTable t', ?_, ?_⟩
  · rw [Registry.tables, Registry.listing_of_whole hentries]
    simp [Snapshot.allTables, Entry.isNamespace, Entry.ofTable, htablename, htablename']
  · show ¬t'.database.IsText
    rw [hdatabase']
    exact Bool.false_ne_true

/-- Neither the tables of the first group can be listed nor the schema of one loaded. -/
theorem reads_of_any_origin_spoiled :
    ∃ (c : Catalog) (i : Identifier) (s : Server), i.tableName = .ok "orders" ∧ s.Healthy ∧
      ((c.listTables (.name "good")).run.run Server.answer s).result = .error .lacking ∧
      ((c.tableSchema i).run.run Server.answer s).result = .error .lacking := by
  let c : Catalog := ⟨⟨.text "localhost", 9092, .text "default"⟩⟩
  let i : Identifier := .parts ["good", "orders"]
  let s : Server := { Server.start true with registry := spoiled }
  have hs : s.Healthy := ⟨rfl, rfl⟩
  obtain ⟨⟨-, hlisted, -⟩, -, hloaded, -⟩ := c.reads_of_any_origin (.name "good") (i := i) rfl hs
  have hthere : isThere s.registry "good" = true := by simp [isThere, s, spoiled]
  obtain ⟨hdeep, hunplaced⟩ := hasUnplaced_spoiled
  exact ⟨c, i, s, rfl, hs, hlisted.mpr ⟨hthere, hdeep, hunplaced⟩, hloaded.mpr ⟨hdeep, .inl hunplaced⟩⟩

/-- Reads do not always have a result or tell that nothing is there: a document of one group spoils those of
another. -/
theorem not_always_answered :
    ¬∀ (c : Catalog) (ns i : Identifier) (name : String) (s : Server), i.tableName = .ok name → s.Healthy →
      Answers ((c.listTables ns).run.run Server.answer s).result = true ∧
      Answers ((c.tableSchema i).run.run Server.answer s).result = true := by
  intro hanswers
  let c : Catalog := ⟨⟨.text "localhost", 9092, .text "default"⟩⟩
  let i : Identifier := .parts ["good", "orders"]
  let s : Server := { Server.start true with registry := spoiled }
  have hs : s.Healthy := ⟨rfl, rfl⟩
  have hthere : isThere s.registry "good" = true := by simp [isThere, s, spoiled]
  have hlisted := (c.listTables_ends (.name "good") hs).2.1.mpr ⟨hthere, hasUnplaced_spoiled⟩
  have hanswer := (hanswers c (.name "good") i "orders" s rfl hs).1
  rw [hlisted] at hanswer
  cases hanswer

end

end Catalog

end SchemaCatalog
