/-
  Every written document describes a table.

  What a table is written from may be any values: options that are lists of doubles, columns named by a null.
  They need not come back as they are.  But whatever is written has an echo (`Json.hasEcho`), and the parts that
  decide whether a document can be read are written by the catalog itself: the members of the document and of
  its comment (`spells_root`, `spells_metadata`), and the kind of every column.  So a document that is written
  under two texts is read as a table with these names; and if its columns are named by texts, as a table with
  these columns.  Its location, too, is taken from texts, since bytes cannot be written, and comes back.
-/
import SchemaCatalog.Proofs.Document.RoundTrip
import SchemaCatalog.Proofs.Document.Acceptance
import SchemaCatalog.Proofs.Location
import Mathlib.Data.List.Nodup

namespace SchemaCatalog.Document

open Json (Tree Padded Echoes EchoesMember)
open Text (Points)
open Column (IsKnown typed stored storedType)

/-! ## Echoes of members -/

/-- A member that is named by a text has an echo of this name. -/
theorem name_of_echoesMember {room : Nat} {k : String} {v : Value} {n : Points × Tree}
    (h : EchoesMember room (.text k, v) n) : n.1 = k := by
  obtain ⟨⟨name, hkey, hname⟩, -⟩ := h
  cases hkey
  rw [← hname, Json.readBack_string]

theorem names_of_echoes {room : Nat} {ms : List (String × Value)} {ns : List (Points × Tree)}
    (h : List.Forall₂ (EchoesMember room) (Members.named ms) ns) :
    ns.map Prod.fst = ms.map fun m => (m.1 : Points) := by
  induction ms generalizing ns with
  | nil => cases h; rfl
  | cons m ms ih =>
    rw [Members.named_cons] at h
    cases h with
    | cons hm hms => rw [List.map_cons, List.map_cons, ih hms, name_of_echoesMember hm]

/-- A member named by a text echoes under this text. -/
theorem echoesMember_text {room : Nat} (k : String) {v : Value} {t : Tree} (h : Echoes room v t) :
    EchoesMember room (.text k, v) (k, t) := ⟨⟨k, rfl, Json.readBack_string _⟩, h⟩

section

variable [Json.Nesting]

/-- There is room for the objects and lists of a document itself. -/
theorem exists_room : ∃ n, Json.Nesting.deepest = n + 3 := Nat.exists_eq_add_of_le' Json.Nesting.three_le

theorem write_of_written {v : Value} {s : String} (h : written v = .ok s) : Json.write v = .ok s.toList := by
  unfold written at h
  cases hwrite : Json.write v with
  | ok text =>
    rw [hwrite] at h
    cases h
    rw [String.toList_ofList]
  | error why => rw [hwrite] at h; cases why <;> cases h

/-- The text of a written value is that of its echo. -/
theorem writes_of_written {v : Value} {s : String} {ms : List (Points × Tree)} (hs : written v = .ok s)
    (h : Echoes Json.Nesting.deepest v (.object ms)) : Writes s ms := by
  obtain ⟨text, hwrite, hspells, hroom⟩ := h
  have htext := write_of_written hs
  rw [Json.write, hwrite] at htext
  cases htext
  exact ⟨hspells.padded, hroom⟩

/-- The members of a written object can be written with what room is left. -/
theorem isWritten_of_written {ms : Members} {s : String} (h : written (.object ms) = .ok s) {n : Nat}
    (hn : Json.Nesting.deepest = n + 1) : ∀ m ∈ ms, Json.IsWritten n m := by
  have hwrite := write_of_written h
  rw [Json.write] at hwrite
  obtain ⟨n', hn', hwritten⟩ := Json.isWritten_of_object hwrite
  obtain rfl : n = n' := by omega
  exact hwritten

/-- Every member of a written object has an echo. -/
theorem exists_echo_of_written {ms : Members} {s : String} (h : written (.object ms) = .ok s) {n : Nat}
    (hn : Json.Nesting.deepest = n + 1) : ∀ m ∈ ms, ∃ t, Echoes n m.2 t := by
  intro m hm
  obtain ⟨-, text, htext⟩ := isWritten_of_written h hn m hm
  exact Json.hasEcho m.2 n text htext

end

/-! ## The comment -/

/-- The sources of a table, taken apart. -/
def sourcesTree (bucket path : String) : Tree := .object [(bucket, .list [.text path])]

theorem value_sources (bucket path : String) : (sourcesTree bucket path).value = sourcesAt bucket path := by
  rw [sourcesTree, Tree.value_object_singleton, Tree.value_list, List.map_singleton, Tree.value_text,
    Value.ofPoints_string, Value.ofPoints_string, sourcesAt]

theorem echoes_sources (n : Nat) (bucket path : String) :
    Echoes (n + 2) (sourcesAt bucket path) (sourcesTree bucket path) :=
  Json.echoes_object
    (.cons (echoesMember_text bucket (Json.echoes_list (.cons (Json.echoes_text path) .nil))) .nil)

/-- A comment taken apart, given the echoes of what the table's owner chose. -/
def commentTrees (database tablename : Tree) (bucket path : String) (header field record : Tree)
    (format : FileFormat) : List (Points × Tree) :=
  [("database", database), ("tablename", tablename), ("sources", sourcesTree bucket path),
   ("hasHeaderRow", header), ("fieldDelimiter", field), ("recordDelimiter", record),
   ("objectDataFormat", .text format.name)]

/-- What can be written as a comment has texts as the parts of its location, and is spelled member by member. -/
theorem spells_metadata [Json.Nesting] {database tablename v : Value} {location : Location} {format : FileFormat}
    {options : Members} {comment : String} (hv : Location.ofValue v = .ok location)
    (h : written (metadata database tablename location format options) = .ok comment) :
    ∃ (n : Nat) (bucket path : String) (d t header field record : Tree), location = ⟨.text bucket, .text path⟩ ∧
      Echoes n database d ∧ Echoes n tablename t ∧
      Echoes n (options.findD "has_header_row" (.text "false")) header ∧
      Echoes n (options.findD "field_delimiter" (.text ",")) field ∧
      Echoes n (options.findD "record_delimiter" (.text "\n")) record ∧
      Writes comment (commentTrees d t bucket path header field record format) := by
  obtain ⟨n, hn⟩ := exists_room
  have hecho := exists_echo_of_written h hn
  simp only [List.forall_mem_cons] at hecho
  obtain ⟨⟨d, hd⟩, ⟨t, ht⟩, -, ⟨header, hheader⟩, ⟨field, hfield⟩, ⟨record, hrecord⟩, -⟩ := hecho
  obtain ⟨bucket, path, rfl⟩ : ∃ bucket path, location = ⟨.text bucket, .text path⟩ := by
    obtain htexts | ⟨bucket, path, rfl⟩ := Location.texts_or_bytes hv
    · exact htexts
    -- bytes cannot name a member
    · obtain ⟨-, sources, hsources⟩ := isWritten_of_written h hn
        (.text "sources", .object [(.bytes bucket, .list [.bytes path])]) (by simp)
      obtain ⟨m, -, hmembers⟩ := Json.isWritten_of_object hsources
      obtain ⟨⟨key, hkey⟩, -⟩ := hmembers _ (List.mem_singleton_self _)
      cases hkey
  refine ⟨n + 2, bucket, path, d, t, header, field, record, rfl, hd, ht, hheader, hfield, hrecord,
    writes_of_written h ?_⟩
  rw [hn]
  exact Json.echoes_object (.cons (echoesMember_text _ hd) (.cons (echoesMember_text _ ht)
    (.cons (echoesMember_text _ (echoes_sources n bucket path)) (.cons (echoesMember_text _ hheader)
    (.cons (echoesMember_text _ hfield) (.cons (echoesMember_text _ hrecord)
    (.cons (echoesMember_text _ (Json.echoes_text format.name)) .nil)))))))

/-- A comment that is written under two texts has these as its names, and the sources of its location, whose
parts are texts. -/
theorem hasNames_of_written [Json.Nesting] {ns name comment : String} {v : Value} {location : Location}
    {format : FileFormat} {options : Members} (hv : Location.ofValue v = .ok location)
    (h : written (metadata (.text ns) (.text name) location format options) = .ok comment) :
    ∃ ms bucket path, Writes comment ms ∧ Tree.under "database" ms = some (.text ns) ∧
      Tree.under "tablename" ms = some (.text name) ∧ location = ⟨.text bucket, .text path⟩ ∧
      (Tree.under "sources" ms).map Tree.value = some (sourcesAt bucket path) := by
  obtain ⟨n, bucket, path, d, t, header, field, record, rfl, hd, ht, -, -, -, hspells⟩ := spells_metadata hv h
  obtain rfl := text_of_value (hd.value_of_plain (.text ns))
  obtain rfl := text_of_value (ht.value_of_plain (.text name))
  refine ⟨_, bucket, path, hspells, ?_, ?_, rfl, ?_⟩
  · simp [Tree.under, lastUnder, commentTrees]
  · simp [Tree.under, lastUnder, commentTrees]
  · have hlast : Tree.under "sources"
      (commentTrees (.text ns) (.text name) bucket path header field record format) =
        some (sourcesTree bucket path) := by simp [Tree.under, lastUnder, commentTrees]
    rw [hlast, Option.map_some, value_sources]

/-! ## The columns -/

/-- The member that describes a column of a kind. -/
def typeMember (kind : JsonKind) : Value := .object [(.text "type", .text kind.name)]

theorem plain_typeMember (kind : JsonKind) : (typeMember kind).Plain :=
  .object [("type", .text kind.name)] (List.nodup_singleton _) fun m hm => by
    rw [List.mem_singleton.mp hm]
    exact .text _

/-- Its echo describes a column of the kind. -/
theorem types_of_echoes {room : Nat} {kind : JsonKind} {t : Tree} (h : Echoes room (typeMember kind) t) :
    Types t kind := by
  obtain ⟨ms, rfl, hms⟩ := exists_object_of_value (h.value_of_plain (plain_typeMember kind))
  have hfind : Members.find? "type" [(.text "type", .text kind.name)] = some (.text kind.name) := by
    rw [Members.find?, Members.get?_cons_text, if_pos rfl]
  rw [hms, find?_table] at hfind
  obtain ⟨type, htype, hvalue⟩ := Option.map_eq_some_iff.mp hfind
  refine ⟨ms, kind.name, rfl, ?_, JsonKind.ofName?_eq_some.mp (JsonKind.ofName?_name kind)⟩
  rw [htype, text_of_value hvalue]

/-- Every member of the columns describes one of some kind. -/
theorem kinds_of_columnMembers {cs : List Column} {ms members : Members} (h : columnMembers cs ms = .ok members)
    (hms : ∀ m ∈ ms, ∃ kind, m.2 = typeMember kind) : ∀ m ∈ members, ∃ kind, m.2 = typeMember kind := by
  induction cs generalizing ms with
  | nil => cases h; exact hms
  | cons c cs ih =>
    rw [columnMembers] at h
    split at h
    · cases h
    · rename_i kind _
      split at h
      · rename_i ms' hput
        refine ih h fun m hm => ?_
        -- the member was there before, or it is the one of the column
        unfold Members.put? at hput
        split at hput
        · cases hput
          rcases Members.mem_put hm with hold | ⟨hvalue, -⟩
          · exact hms m hold
          · exact ⟨kind.json, hvalue⟩
        · cases hput
      · cases h

/-- Whatever the columns are named by, their echoes describe columns. -/
theorem exists_columns {room : Nat} {members : Members} (h : ∀ m ∈ members, ∃ kind, m.2 = typeMember kind)
    {properties : List (Points × Tree)} (hechoes : List.Forall₂ (EchoesMember room) members properties) :
    ∃ columns, List.Forall₂ IsColumn (latest properties) columns := by
  have htypes : ∀ p ∈ properties, ∃ kind, Types p.2 kind := by
    induction hechoes with
    | nil => exact fun p hp => absurd hp List.not_mem_nil
    | cons hm _ ih =>
      obtain ⟨⟨kind, hkind⟩, hrest⟩ := List.forall_mem_cons.mp h
      exact List.forall_mem_cons.mpr ⟨⟨kind, types_of_echoes (hkind ▸ hm.2)⟩, ih hrest⟩
  refine Json.exists_forall₂ fun p hp => ?_
  obtain ⟨kind, hkind⟩ := htypes p (lastUnder_mem (mem_latest.mp hp))
  exact ⟨_, kind, hkind, rfl⟩

/-- Columns with different texts as names are those that their echoes describe. -/
theorem isColumn_of_echoes {room : Nat} {cs : List (String × Value)} (hknown : ∀ c ∈ cs, IsKnown c.2)
    {properties : List (Points × Tree)}
    (h : List.Forall₂ (EchoesMember room) (Members.named (cs.map fun c => (c.1, Column.member c.2))) properties) :
    List.Forall₂ IsColumn properties (cs.map fun c => ⟨.text c.1, storedType c.2⟩) := by
  induction cs generalizing properties with
  | nil => cases h; exact .nil
  | cons c cs ih =>
    obtain ⟨hc, hcs⟩ := List.forall_mem_cons.mp hknown
    rw [List.map_cons, Members.named_cons] at h
    cases h with
    | @cons _ p _ _ hm hms =>
      obtain ⟨s, kind, htype, hkind⟩ := Column.isKnown_iff.mp hc
      have hname : p.1 = c.1 := name_of_echoesMember hm
      have hecho : Echoes room (typeMember kind.json) p.2 := by
        have hvalue := hm.2
        rwa [htype, Column.member_eq hkind] at hvalue
      refine .cons ⟨kind.json, types_of_echoes hecho, ?_⟩ (ih hcs hms)
      show (⟨.text c.1, storedType c.2⟩ : Column) = _
      rw [hname, Value.ofPoints_string, htype, storedType, ColumnKind.storedName_eq hkind, ColumnKind.column_json]

/-- Columns named by texts are described, once they are written, as they are stored. -/
theorem isColumn_stored {room : Nat} {cs : List Column} (hnames : ∀ c ∈ cs, ∃ n, c.name = .text n)
    {members : Members} (hmembers : columnMembers cs [] = .ok members) {properties : List (Points × Tree)}
    (hechoes : List.Forall₂ (EchoesMember room) members properties) :
    List.Forall₂ IsColumn (latest properties) (stored cs) := by
  have hknown := isKnown_of_columnMembers hmembers
  rw [columnMembers_nil hnames hknown] at hmembers
  cases hmembers
  have hlatest : latest properties = properties := by
    refine latest_of_nodup ?_
    rw [names_of_echoes hechoes, List.map_map]
    have hnodup := List.Nodup.map Value.points_injective (nodup_latest (typed cs))
    rwa [List.map_map] at hnodup
  rw [hlatest]
  exact isColumn_of_echoes (isKnown_latest hknown) hechoes

/-! ## The document -/

variable [Json.Nesting]

/-- What a document was written from: two texts, and the columns in one of them. -/
theorem written_of_encode {database tablename v : Value} {cs : List Column} {options : Members} {d : String}
    (h : encode database tablename cs options v = .ok d) :
    ∃ format location comment members, FileFormat.ofValue (options.findD "format" .null) = .ok format ∧
      Location.ofValue v = .ok location ∧
      written (metadata database tablename location format options) = .ok comment ∧
      columnMembers cs [] = .ok members ∧ written (root comment members) = .ok d := by
  unfold encode at h
  split at h
  · cases h
  rename_i hformat
  split at h
  · cases h
  rename_i hlocation
  split at h
  · cases h
  rename_i hmembers
  split at h
  · cases h
  rename_i hcomment
  exact ⟨_, _, _, _, hformat, hlocation, hcomment, hmembers, h⟩

/-- The document of a table was written from its normalized properties and the location among them. -/
theorem written_of_encodeTable {t : Table} {d : String} (h : encodeTable t = .ok d) :
    ∃ options v location format comment members,
      Options.normalize t.properties = .ok options ∧ options.find? "external_location" = some v ∧
      Location.ofValue v = .ok location ∧
      written (metadata t.ns t.name location format options) = .ok comment ∧
      columnMembers t.columns [] = .ok members ∧ written (root comment members) = .ok d := by
  unfold encodeTable at h
  split at h
  · cases h
  rename_i hoptions
  split at h
  · cases h
  split at h
  · cases h
  rename_i hfound
  obtain ⟨format, location, comment, members, -, hlocation, hcomment, hmembers, hwritten⟩ := written_of_encode h
  exact ⟨_, _, location, format, comment, members, hoptions, hfound, hlocation, hcomment, hmembers, hwritten⟩

/-- A document taken apart, given its comment and what describes its columns. -/
def rootTrees (comment : String) (properties : List (Points × Tree)) : List (Points × Tree) :=
  [(commentKey, .text comment), ("description", .text "Format of row of data"), ("type", .text "object"),
   (columnsKey, .object properties)]

/-- A document is spelled member by member, given the echoes of its columns. -/
theorem spells_root {comment d : String} {members : Members} (h : written (root comment members) = .ok d)
    {n : Nat} (hn : Json.Nesting.deepest = n + 2) {properties : List (Points × Tree)}
    (hechoes : List.Forall₂ (EchoesMember n) members properties) : Writes d (rootTrees comment properties) := by
  refine writes_of_written h ?_
  rw [hn]
  exact Json.echoes_object (.cons (echoesMember_text _ (Json.echoes_text _))
    (.cons (echoesMember_text _ (Json.echoes_text _)) (.cons (echoesMember_text _ (Json.echoes_text _))
    (.cons (echoesMember_text _ (Json.echoes_object hechoes)) .nil))))

/-- Whatever its members are, a document is spelled with an echo of each. -/
theorem exists_spells_root {comment d : String} {members : Members} (h : written (root comment members) = .ok d) :
    ∃ n properties, List.Forall₂ (EchoesMember n) members properties ∧
      Writes d (rootTrees comment properties) := by
  obtain ⟨k, hk⟩ := exists_room
  obtain ⟨-, text, htext⟩ := isWritten_of_written h hk (.text columnsKey, .object members) (by simp)
  obtain ⟨n, properties, hn, hechoes⟩ := Json.exists_echoes (fun m _ => Json.hasEcho m.2) htext
  exact ⟨n, properties, hechoes, spells_root h (by omega) hechoes⟩

/-- A document that is written under two texts is read as a table with these names, and with its own columns if
these are named by texts.  Its sources are those of the location that the properties have in normal form. -/
theorem exists_decode_of_encodeTable {ns name d : String} {cs : List Column} {properties : Members}
    (h : encodeTable ⟨.text ns, .text name, cs, properties⟩ = .ok d) :
    ∃ t, decode (.bytes (Text.Utf8.encode d.toList)) = .ok t ∧ t.database = .text ns ∧ t.tablename = .text name ∧
      ((∀ c ∈ cs, ∃ n, c.name = .text n) → t.columns = stored cs) ∧
      ∃ options location bucket path, Options.normalize properties = .ok options ∧
        options.find? "external_location" = some location ∧
        Location.ofValue location = .ok ⟨.text bucket, .text path⟩ ∧
        t.options.find? "sources" = some (sourcesAt bucket path) := by
  obtain ⟨options, v, location, format, comment, members, hoptions, hfound, hlocation, hcomment, hmembers,
    hwritten⟩ := written_of_encodeTable h
  obtain ⟨metadata, bucket, path, hmetadata, hdatabase, htablename, rfl, hsources⟩ :=
    hasNames_of_written hlocation hcomment
  obtain ⟨n, specs, hspecs, hspells⟩ := exists_spells_root hwritten
  have hroot : HasRoot (.bytes (Text.Utf8.encode d.toList)) (rootTrees comment specs) := ⟨_, .bytes _, hspells⟩
  -- whatever columns the members describe are those of the table
  have hread : ∀ columns, List.Forall₂ IsColumn (latest specs) columns →
      decode (.bytes (Text.Utf8.encode d.toList)) =
        .ok ⟨.text ns, .text name, columns, optionsOf metadata⟩ := by
    intro columns hcolumns
    rw [← Value.ofPoints_string ns, ← Value.ofPoints_string name]
    refine decode_of_describes (Describes.mk hroot ⟨comment, ?_, hmetadata⟩ ?_ hdatabase htablename hcolumns)
    · simp [Tree.under, lastUnder, rootTrees, commentKey, columnsKey]
    · simp [Tree.under, lastUnder, rootTrees, commentKey, columnsKey]
  obtain ⟨columns, hcolumns⟩ := exists_columns
    (kinds_of_columnMembers hmembers fun m hm => absurd hm List.not_mem_nil) hspecs
  refine ⟨_, hread columns hcolumns, rfl, rfl, fun hnames => ?_, options, v, bucket, path, hoptions, hfound,
    hlocation, ?_⟩
  · have hsame := hread _ (isColumn_stored hnames hmembers hspecs)
    rw [hread columns hcolumns] at hsame
    exact congrArg StoredTable.columns (Except.ok.inj hsame)
  · have hkey : "sources" ∈ optionKeys := by decide
    exact (find?_optionsOf hkey metadata).trans hsources

end SchemaCatalog.Document
