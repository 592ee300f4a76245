/-
  A table read back from its document.

  `Table.stored?` says what a document keeps of a table without mentioning documents: the properties in
  effect, the bucket and path of the location, the columns by their latest types.  A table whose parts are
  plain, and not too deep, has a document exactly if `stored?` has a value, and that value is what is read
  from the document.

  The way there follows the checks of `encode` one by one.  Both texts of a document are written from
  plain values, the comment and the document around it, so reading them is `Json.read_of_write` twice.  For
  the depth only the parts of the table matter; of the lists and objects around them there are three.
-/
import SchemaCatalog.Proofs.Json.RoundTrip
import SchemaCatalog.Proofs.Text.Utf8
import SchemaCatalog.Proofs.Document.Options
import SchemaCatalog.Proofs.Document.Columns

namespace SchemaCatalog

open Options (effective?)

/-! ## Tables with plain parts -/

/-- The parts of a table that its document keeps are plain, and its names are texts. -/
structure Table.Plain (t : Table) : Prop where
  ns : t.ns.Plain
  name : t.name.Plain
  columns : ∀ c ∈ t.columns, ∃ n, c.name = .text n
  keys : ∀ p ∈ t.properties, ∃ k, p.1 = .text k
  values : ∀ p ∈ t.properties, ∀ k, p.1 = .text k → Text.lower k ∈ Options.names → p.2.Plain

/-- Spelling out a boolean keeps a value plain. -/
theorem Value.Plain.spelled {v : Value} (h : v.Plain) : (Options.spelled v).Plain := by
  cases h with
  | bool b => exact .text _
  | null => exact .null
  | int i short => exact .int i short
  | text s => exact .text s
  | list items plain => exact .list items plain
  | object members distinct plain => exact .object members distinct plain

/-- Spelling out a boolean makes a value no deeper. -/
theorem Value.Within.spelled {v : Value} {n : Nat} (h : v.Within n) : (Options.spelled v).Within n := by
  cases v with
  | bool b => exact within_scalar rfl
  | _ => exact h

theorem Table.Plain.effective {t : Table} (ht : t.Plain) {name : String} (hname : name ∈ Options.names)
    {v : Value} (h : effective? name t.properties = some v) : v.Plain := by
  obtain ⟨k, w, hmem, hk, rfl⟩ := Options.exists_of_effective? h
  exact (ht.values _ hmem k rfl (hk ▸ hname)).spelled

/-- A property in effect or a text in its place is plain. -/
theorem Table.Plain.effectiveD {t : Table} (ht : t.Plain) {name : String}
    (hname : name ∈ Options.names) (fallback : String) :
    ((effective? name t.properties).getD (.text fallback)).Plain := by
  cases h : effective? name t.properties with
  | none => exact .text fallback
  | some v => exact ht.effective hname h

/-- The value can be written and read back, also within an object. -/
def Value.IsWritable [Json.Nesting] (v : Value) : Prop := v.Plain ∧ v.Within (Json.Nesting.deepest - 1)

theorem Value.isWritable_text [Json.Nesting] (s : String) : (Value.text s).IsWritable :=
  ⟨.text s, within_scalar rfl⟩

/-- The parts of a table that its document keeps leave room for the object around them. -/
structure Table.Fits [Json.Nesting] (t : Table) : Prop where
  ns : t.ns.Within (Json.Nesting.deepest - 1)
  name : t.name.Within (Json.Nesting.deepest - 1)
  options : ∀ k ∈ Options.names, ∀ v, effective? k t.properties = some v → v.Within (Json.Nesting.deepest - 1)

theorem Table.Fits.effectiveD [Json.Nesting] {t : Table} (ht : t.Fits) {name : String}
    (hname : name ∈ Options.names) (fallback : String) :
    ((effective? name t.properties).getD (.text fallback)).Within (Json.Nesting.deepest - 1) := by
  cases h : effective? name t.properties with
  | none => exact Value.within_scalar rfl
  | some v => exact ht.options name hname v h

/-! ## What is stored of a table -/

/-- The options that a document keeps of a table, given the name of its format, its bucket and its path. -/
def Table.storedOptions (t : Table) (format : String) (bucket path : List Char) : Members :=
  [(.text "objectDataFormat", .text format),
   (.text "hasHeaderRow", (effective? "has_header_row" t.properties).getD (.text "false")),
   (.text "recordDelimiter", (effective? "record_delimiter" t.properties).getD (.text "\n")),
   (.text "fieldDelimiter", (effective? "field_delimiter" t.properties).getD (.text ",")),
   (.text "sources", .object [(.text (String.ofList bucket), .list [.text (String.ofList path)])])]

/-- What a document keeps of a table, if the table can have one: its format is known, it has a location
that can be taken apart, and the types of its columns are known. -/
def Table.stored? (t : Table) : Option StoredTable :=
  match effective? "format" t.properties, effective? "external_location" t.properties with
  | some (.text format), some (.text location) =>
    match Location.split? location.toList with
    | some (bucket, path) =>
      if (FileFormat.ofName? format).isSome ∧ ∀ c ∈ t.columns, Column.IsKnown c.type then
        some ⟨t.ns, t.name, Column.stored t.columns, t.storedOptions (Text.lower format) bucket path⟩
      else none
    | none => none
  | _, _ => none

/-- The conditions under which something is stored, and what is. -/
theorem Table.stored?_eq_some {t : Table} {s : StoredTable} :
    t.stored? = some s ↔ ∃ format location bucket path,
      effective? "format" t.properties = some (.text format) ∧
      effective? "external_location" t.properties = some (.text location) ∧
      Location.split? location.toList = some (bucket, path) ∧
      (FileFormat.ofName? format).isSome ∧ (∀ c ∈ t.columns, Column.IsKnown c.type) ∧
      s = ⟨t.ns, t.name, Column.stored t.columns, t.storedOptions (Text.lower format) bucket path⟩ := by
  constructor
  · intro h
    unfold Table.stored? at h
    split at h
    · rename_i format location hformat hlocation
      split at h
      · rename_i bucket path hsplit
        split at h
        · rename_i hok
          exact ⟨format, location, bucket, path, hformat, hlocation, hsplit, hok.1, hok.2,
            (Option.some.inj h).symm⟩
        · cases h
      · cases h
    · cases h
  · rintro ⟨format, location, bucket, path, hformat, hlocation, hsplit, hname, htypes, rfl⟩
    simp only [Table.stored?, hformat, hlocation, hsplit, if_pos (And.intro hname htypes)]

/-! ## The two texts of a document -/

namespace Document

section

variable [Json.Nesting]

/-- The text that a plain value is written as is read as the value. -/
theorem read_of_written {v : Value} (h : v.Plain) {s : String} (hs : written v = .ok s) : Json.read s = .ok v := by
  unfold written at hs
  split at hs <;> cases hs
  rename_i text htext
  rw [String.toList_ofList]
  exact Json.read_of_write h htext

/-- A plain value is written if it is not too deep. -/
theorem exists_written {v : Value} (h : v.Plain) (hroom : v.Within Json.Nesting.deepest) :
    ∃ s, written v = .ok s := by
  obtain ⟨s, hs⟩ := Json.exists_write h hroom
  exact ⟨String.ofList s, by rw [written, hs]⟩

theorem written_of_deep {v : Value} (h : v.Plain) (hroom : ¬v.Within Json.Nesting.deepest) :
    written v = .error .tooDeep := by rw [written, Json.write_of_deep h hroom]

/-- What is read from a document: the parts of its comment and the columns under its members. -/
theorem decode_root {d comment : String} {metadata columns : List (String × Value)}
    {database tablename : Value} {cs : List Column}
    (hroot : Json.read d = .ok (root comment (Members.named columns)))
    (hcomment : Json.read comment = .ok (.object (Members.named metadata)))
    (hdatabase : (Members.named metadata).find? "database" = some database)
    (htablename : (Members.named metadata).find? "tablename" = some tablename)
    (hcolumns : readColumns (Members.named columns) = .ok cs) :
    decode (.bytes (Text.Utf8.encode d.toList)) =
      .ok ⟨database, tablename, cs, readOptions (Members.named metadata)⟩ := by
  let members : Members := Members.named [(commentKey, .text comment),
    ("description", .text "Format of row of data"), ("type", .text "object"),
    (columnsKey, .object (Members.named columns))]
  have hdocument : readPart .document d = .ok members := by
    rw [readPart, hroot]
    rfl
  have hpart : readPart .metadata comment = .ok (Members.named metadata) := by
    rw [readPart, hcomment]
  have hproperties : required .document columnsKey members = .ok (.object (Members.named columns)) := by
    simp [required, Members.find?, members, Members.get?_cons_text, commentKey, columnsKey]
  have htext : required .document commentKey members = .ok (.text comment) := by
    simp [required, Members.find?, members, Members.get?_cons_text]
  have hdatabase' : required .metadata "database" (Members.named metadata) = .ok database := by
    rw [required, hdatabase]
  have htablename' : required .metadata "tablename" (Members.named metadata) = .ok tablename := by
    rw [required, htablename]
  simp only [decode, textOf, Text.Utf8.decode_encode, hdocument, hproperties, htext, Value.points?, hpart,
    hdatabase', htablename', hcolumns, bind, Except.bind]
  rfl

/-! ## Writing a table -/

/-- The comment that describes a table, in terms of the properties in effect. -/
def commentOf (t : Table) (location : Location) (format : FileFormat) : List (String × Value) :=
  [("database", t.ns),
   ("tablename", t.name),
   ("sources", .object [(location.bucket, .list [location.path])]),
   ("hasHeaderRow", (effective? "has_header_row" t.properties).getD (.text "false")),
   ("fieldDelimiter", (effective? "field_delimiter" t.properties).getD (.text ",")),
   ("recordDelimiter", (effective? "record_delimiter" t.properties).getD (.text "\n")),
   ("objectDataFormat", .text format.name)]

/-- The checks of a table in their order, each on what it depends on. -/
theorem encodeTable_eq {t : Table} (hkeys : ∀ p ∈ t.properties, ∃ k, p.1 = .text k) :
    encodeTable t =
      match FileFormat.ofValue ((effective? "format" t.properties).getD .null) with
      | .error e => .error e
      | .ok format =>
        match effective? "external_location" t.properties with
        | none => .error (.noLocation t.ns t.name)
        | some location =>
          match Location.ofValue location with
          | .error e => .error e
          | .ok location =>
            match columnMembers t.columns [] with
            | .error e => .error e
            | .ok members =>
              match written (.object (Members.named (commentOf t location format))) with
              | .error e => .error e
              | .ok comment => written (root comment members) := by
  -- normalizing keeps the latest value under each name, so every later look-up finds the one in effect
  have hoptions := Options.normalize_eq hkeys
  have hfind : ∀ name ∈ Options.names,
      Members.find? name (Members.named (latest (Options.recognized t.properties))) =
        effective? name t.properties := fun name hname => Options.find?_normalize hkeys hoptions hname
  have hformat := hfind "format" (by decide)
  have hlocation := hfind "external_location" (by decide)
  have hheader := hfind "has_header_row" (by decide)
  have hfield := hfind "field_delimiter" (by decide)
  have hrecord := hfind "record_delimiter" (by decide)
  simp only [encodeTable, hoptions, Members.findD, hformat, hlocation]
  cases hf : FileFormat.ofValue ((effective? "format" t.properties).getD .null) with
  | error e => rfl
  | ok format =>
    cases hl : effective? "external_location" t.properties with
    | none => rfl
    | some location =>
      simp only [encode, Members.findD, hformat, hf, metadata, hheader, hfield, hrecord]
      rfl

end

/-! ## The parts are plain -/

/-- The sources of a table at a place. -/
def sourcesAt (bucket path : String) : Value := .object [(.text bucket, .list [.text path])]

theorem plain_sourcesAt (bucket path : String) : (sourcesAt bucket path).Plain := by
  refine .object [(bucket, .list [.text path])] (by simp) fun m hm => ?_
  rw [List.mem_singleton.mp hm]
  refine .list _ fun v hv => ?_
  rw [List.mem_singleton.mp hv]
  exact .text path

theorem within_sourcesAt {n : Nat} (bucket path : String) : (sourcesAt bucket path).Within (n + 2) := by
  show (Value.object (Members.named [(bucket, .list [.text path])])).Within (n + 2)
  refine Value.within_named.mpr ⟨n + 1, rfl, ?_⟩
  refine List.forall_mem_singleton.mpr (Value.within_list.mpr ⟨n, rfl, ?_⟩)
  exact List.forall_mem_singleton.mpr (Value.within_scalar rfl)

theorem plain_commentOf {t : Table} (ht : t.Plain) (bucket path : String) (format : FileFormat) :
    (Value.object (Members.named (commentOf t ⟨.text bucket, .text path⟩ format))).Plain := by
  refine .object _ (by simp [commentOf]) fun m hm => ?_
  simp only [commentOf, List.mem_cons, List.not_mem_nil, or_false] at hm
  rcases hm with rfl | rfl | rfl | rfl | rfl | rfl | rfl
  · exact ht.ns
  · exact ht.name
  · exact plain_sourcesAt bucket path
  · exact ht.effectiveD (by decide) "false"
  · exact ht.effectiveD (by decide) ","
  · exact ht.effectiveD (by decide) "\n"
  · exact .text format.name

theorem plain_member {type : Value} (h : Column.IsKnown type) : (Column.member type).Plain := by
  obtain ⟨s, k, rfl, hk⟩ := Column.isKnown_iff.mp h
  rw [Column.member_eq hk]
  exact .object _ (by simp) fun m hm => by rw [List.mem_singleton.mp hm]; exact .text _

theorem plain_root (comment : String) {cs : List (String × Value)} (hd : (cs.map Prod.fst).Nodup)
    (h : ∀ c ∈ cs, Column.IsKnown c.2) :
    (root comment (Members.named (cs.map fun c => (c.1, Column.member c.2)))).Plain := by
  have hcolumns : (Value.object (Members.named (cs.map fun c => (c.1, Column.member c.2)))).Plain := by
    refine .object _ (by rwa [List.map_map]) fun m hm => ?_
    obtain ⟨c, hc, rfl⟩ := List.mem_map.mp hm
    exact plain_member (h c hc)
  refine .object [(commentKey, .text comment), ("description", .text "Format of row of data"),
    ("type", .text "object"), (columnsKey, _)] (by simp [commentKey, columnsKey]) fun m hm => ?_
  simp only [List.mem_cons, List.not_mem_nil, or_false] at hm
  rcases hm with rfl | rfl | rfl | rfl
  · exact .text comment
  · exact .text _
  · exact .text _
  · exact hcolumns

/-! ## Formats, locations and options -/

theorem name_of_ofName? {s : String} {f : FileFormat} (h : FileFormat.ofName? s = some f) :
    f.name = Text.lower s := (FileFormat.ofName?_eq_some.mp h).symm

/-- The options read from the comment of a table. -/
theorem readOptions_commentOf (t : Table) (bucket path : List Char) (format : FileFormat) :
    readOptions (Members.named (commentOf t ⟨.text (String.ofList bucket), .text (String.ofList path)⟩ format)) =
      t.storedOptions format.name bucket path := by
  simp [readOptions, optionKeys, commentOf, Members.find?, Members.get?_cons_text, Members.get?,
    Table.storedOptions]

theorem text_of_ofValue {v : Value} {f : FileFormat} (h : FileFormat.ofValue v = .ok f) :
    ∃ s, v = .text s ∧ FileFormat.ofName? s = some f := by
  unfold FileFormat.ofValue at h
  split at h
  · rename_i f' hfound
    obtain ⟨s, hs, hname⟩ := Option.bind_eq_some_iff.mp hfound
    cases h
    refine ⟨s, ?_, hname⟩
    cases v <;> cases hs
    rfl
  · cases h

/-- Of the plain values only texts are locations. -/
theorem text_of_location {v : Value} (hv : v.Plain) {place : Location} (h : Location.ofValue v = .ok place) :
    ∃ s bucket path, v = .text s ∧ Location.split? s.toList = some (bucket, path) := by
  unfold Location.ofValue at h
  split at h
  · rename_i bucket path hsplit
    obtain ⟨chars, hchars, hsplit⟩ := Option.bind_eq_some_iff.mp hsplit
    cases hv <;> cases hchars
    exact ⟨_, bucket, path, rfl, hsplit⟩
  · cases h

/-! ## The parts are not too deep -/

section

variable [Json.Nesting]

theorem within_commentOf {t : Table} (ht : t.Fits) (bucket path : String) (format : FileFormat) :
    (Value.object (Members.named (commentOf t ⟨.text bucket, .text path⟩ format))).Within
      Json.Nesting.deepest := by
  obtain ⟨n, hn⟩ := Nat.exists_eq_add_of_le' Json.Nesting.three_le
  have hpred : Json.Nesting.deepest - 1 = n + 2 := by rw [hn]; rfl
  refine Value.within_named.mpr ⟨n + 2, hn, fun m hm => ?_⟩
  rw [← hpred]
  simp only [commentOf, List.mem_cons, List.not_mem_nil, or_false] at hm
  rcases hm with rfl | rfl | rfl | rfl | rfl | rfl | rfl
  · exact ht.ns
  · exact ht.name
  · rw [hpred]
    exact within_sourcesAt bucket path
  · exact ht.effectiveD (by decide) "false"
  · exact ht.effectiveD (by decide) ","
  · exact ht.effectiveD (by decide) "\n"
  · exact Value.within_scalar rfl

/-- The document, its columns, and what describes one of them. -/
theorem within_root (comment : String) {cs : List (String × Value)} (h : ∀ c ∈ cs, Column.IsKnown c.2) :
    (root comment (Members.named (cs.map fun c => (c.1, Column.member c.2)))).Within Json.Nesting.deepest := by
  obtain ⟨n, hn⟩ := Nat.exists_eq_add_of_le' Json.Nesting.three_le
  rw [hn]
  have hcolumns : (Value.object (Members.named (cs.map fun c => (c.1, Column.member c.2)))).Within (n + 2) := by
    refine Value.within_named.mpr ⟨n + 1, rfl, fun m hm => ?_⟩
    obtain ⟨c, hc, rfl⟩ := List.mem_map.mp hm
    obtain ⟨s, k, htype, hk⟩ := Column.isKnown_iff.mp (h c hc)
    rw [htype, Column.member_eq hk]
    exact Value.within_named.mpr ⟨n, rfl, List.forall_mem_singleton.mpr (Value.within_scalar rfl)⟩
  show (Value.object (Members.named [(commentKey, .text comment), ("description", .text "Format of row of data"),
    ("type", .text "object"), (columnsKey, _)])).Within (n + 3)
  refine Value.within_named.mpr ⟨n + 2, rfl, fun m hm => ?_⟩
  simp only [List.mem_cons, List.not_mem_nil, or_false] at hm
  rcases hm with rfl | rfl | rfl | rfl
  · exact Value.within_scalar rfl
  · exact Value.within_scalar rfl
  · exact Value.within_scalar rfl
  · exact hcolumns

/-! ## Writing a table and reading it back -/

/-- What a table is written from, once all its checks are passed. -/
theorem encodeTable_of_effective {t : Table} (hkeys : ∀ p ∈ t.properties, ∃ k, p.1 = .text k)
    (hnames : ∀ c ∈ t.columns, ∃ n, c.name = .text n) (htypes : ∀ c ∈ t.columns, Column.IsKnown c.type)
    {format location : String} {f : FileFormat} {bucket path : List Char}
    (hformat : effective? "format" t.properties = some (.text format)) (hf : FileFormat.ofName? format = some f)
    (hlocation : effective? "external_location" t.properties = some (.text location))
    (hsplit : Location.split? location.toList = some (bucket, path)) :
    encodeTable t =
      match written (.object (Members.named
        (commentOf t ⟨.text (String.ofList bucket), .text (String.ofList path)⟩ f))) with
      | .error e => .error e
      | .ok comment =>
        let columns := (latest (Column.typed t.columns)).map fun c => (c.1, Column.member c.2)
        written (root comment (Members.named columns)) := by
  have hformat' : FileFormat.ofValue (.text format) = .ok f := by
    simp [FileFormat.ofValue, FileFormat.ofValue?, Value.text?, hf]
  have hlocation' : Location.ofValue (.text location) =
      .ok ⟨.text (String.ofList bucket), .text (String.ofList path)⟩ := by
    simp [Location.ofValue, Uri.textOf?, hsplit]
  rw [encodeTable_eq hkeys, hformat, hlocation]
  simp only [Option.getD_some, hformat', hlocation', columnMembers_nil hnames htypes]

/-- What is stored of a table is read from its document. -/
theorem decode_of_stored? {t : Table} (ht : t.Plain) {s : StoredTable} (h : t.stored? = some s) {d : String}
    (hd : encodeTable t = .ok d) : decode (.bytes (Text.Utf8.encode d.toList)) = .ok s := by
  obtain ⟨format, location, bucket, path, hformat, hlocation, hsplit, hname, htypes, rfl⟩ :=
    Table.stored?_eq_some.mp h
  obtain ⟨f, hf⟩ := Option.isSome_iff_exists.mp hname
  have hknown := isKnown_latest htypes
  rw [encodeTable_of_effective ht.keys ht.columns htypes hformat hf hlocation hsplit] at hd
  split at hd
  · cases hd
  rename_i comment hcomment
  have hread := read_of_written (plain_commentOf ht (String.ofList bucket) (String.ofList path) f) hcomment
  have hroot := read_of_written (plain_root comment (nodup_latest (Column.typed t.columns)) hknown) hd
  rw [decode_root hroot hread rfl rfl (readColumns_members hknown), readOptions_commentOf, name_of_ofName? hf]
  rfl

/-- A table of which something is stored has a document, if its parts are not too deep. -/
theorem exists_document {t : Table} (ht : t.Plain) (hfits : t.Fits) {s : StoredTable} (h : t.stored? = some s) :
    ∃ d, encodeTable t = .ok d := by
  obtain ⟨format, location, bucket, path, hformat, hlocation, hsplit, hname, htypes, rfl⟩ :=
    Table.stored?_eq_some.mp h
  obtain ⟨f, hf⟩ := Option.isSome_iff_exists.mp hname
  have hknown := isKnown_latest htypes
  obtain ⟨comment, hcomment⟩ :=
    exists_written (plain_commentOf ht (String.ofList bucket) (String.ofList path) f)
      (within_commentOf hfits _ _ f)
  obtain ⟨d, hd⟩ := exists_written (plain_root comment (nodup_latest (Column.typed t.columns)) hknown)
    (within_root comment hknown)
  refine ⟨d, ?_⟩
  rw [encodeTable_of_effective ht.keys ht.columns htypes hformat hf hlocation hsplit]
  simp only [hcomment, hd]

/-! ## What a document needs -/

/-- Something is stored of every table that has a document. -/
theorem stored?_of_encodeTable {t : Table} (ht : t.Plain) {d : String} (h : encodeTable t = .ok d) :
    ∃ s, t.stored? = some s := by
  -- every check that writing has passed is one condition for something to be stored
  rw [encodeTable_eq ht.keys] at h
  split at h
  · cases h
  rename_i f hformat
  split at h
  · cases h
  rename_i location hlocation
  split at h
  · cases h
  rename_i place hplace
  split at h
  · cases h
  rename_i members hmembers
  obtain ⟨format, htext, hname⟩ := text_of_ofValue hformat
  have hformat' : effective? "format" t.properties = some (.text format) := by
    cases heffective : effective? "format" t.properties with
    | none => rw [heffective] at htext; cases htext
    | some v => rw [heffective] at htext; exact congrArg some htext
  obtain ⟨s, bucket, path, rfl, hsplit⟩ := text_of_location (ht.effective (by decide) hlocation) hplace
  exact ⟨_, Table.stored?_eq_some.mpr ⟨format, s, bucket, path, hformat', hlocation, hsplit,
    by rw [hname]; rfl, isKnown_of_columnMembers hmembers, rfl⟩⟩

/-- **Round trip.**  What is read from the document of a table is the table in normal form: its names as
they are, its columns by their latest types, and its options from the properties in effect. -/
theorem decode_encodeTable {t : Table} (ht : t.Plain) {d : String} (hd : encodeTable t = .ok d) :
    ∃ format location bucket path,
      effective? "format" t.properties = some (.text format) ∧
      effective? "external_location" t.properties = some (.text location) ∧
      Location.split? location.toList = some (bucket, path) ∧
      decode (.bytes (Text.Utf8.encode d.toList)) = .ok {
        database := t.ns
        tablename := t.name
        columns := Column.stored t.columns
        options :=
          [(.text "objectDataFormat", .text (Text.lower format)),
           (.text "hasHeaderRow", (effective? "has_header_row" t.properties).getD (.text "false")),
           (.text "recordDelimiter", (effective? "record_delimiter" t.properties).getD (.text "\n")),
           (.text "fieldDelimiter", (effective? "field_delimiter" t.properties).getD (.text ",")),
           (.text "sources",
             .object [(.text (String.ofList bucket), .list [.text (String.ofList path)])])] } := by
  obtain ⟨s, hs⟩ := stored?_of_encodeTable ht hd
  have hdecode := decode_of_stored? ht hs hd
  obtain ⟨format, location, bucket, path, hformat, hlocation, hsplit, -, -, rfl⟩ :=
    Table.stored?_eq_some.mp hs
  exact ⟨format, location, bucket, path, hformat, hlocation, hsplit, hdecode⟩

end

section

open Json.Usual

/-- A table that is plain and has a document: a quote, a line end and a character beyond 16 bits in its
names, a column listed twice, and its format under two spellings. -/
theorem decode_encodeTable_repeated_column :
    ∃ t d, t.Plain ∧ encodeTable t = .ok d ∧ ∃ options,
      decode (.bytes (Text.Utf8.encode d.toList)) =
        .ok ⟨.text "a\"\n", .text "😀", Column.stored t.columns, options⟩ := by
  let t : Table := ⟨.text "a\"\n", .text "😀", [⟨.text "id", .text "integer"⟩, ⟨.text "id", .text "Boolean"⟩],
    [(.text "FORMAT", .text "orc"), (.text "external_location", .text "s3://b/p"), (.text "format", .text "CSV")]⟩
  have ht : t.Plain := by
    refine ⟨.text _, .text _, ?_, ?_, ?_⟩
    · simp [t]
    · simp [t]
    · intro p hp k _ _
      simp only [t, List.mem_cons, List.not_mem_nil, or_false] at hp
      rcases hp with rfl | rfl | rfl <;> exact .text _
  have hsome : (encodeTable t).toOption.isSome = true := by decide +kernel
  cases hd : encodeTable t with
  | error e => rw [hd] at hsome; cases hsome
  | ok d =>
    obtain ⟨format, location, bucket, path, -, -, -, hdecode⟩ := decode_encodeTable ht hd
    exact ⟨t, d, ht, hd, _, hdecode⟩

end

end Document

end SchemaCatalog
