/-
  The text of a document, for readers who know nothing of tables.

  Other tools take a document for what it is, a JSON text, so what matters to them is its members: which ones there
  are, in which order, and what their values are.  The document has four members, its comment is again a text of an
  object, of seven members, and neither holds anything else, whatever the names in them are made of.

  Both are said of the texts themselves: `spells_root` and `spells_metadata` take them apart member by member,
  so no member is hidden behind another of the same name.  What a reader sees then is the value of these parts,
  since no name is repeated.
-/
import SchemaCatalog.Proofs.Document.Written
import SchemaCatalog.Proofs.Json.Visible

namespace SchemaCatalog.Document

open Json (Tree Padded Echoes EchoesMember)
open Text (Points)
open Column (IsKnown typed)

/-- A text that takes an object with no name twice apart is read as this object. -/
theorem read_of_nodup [Json.Nesting] {s : Points} {ms : List (Points × Tree)} (h : Writes s ms)
    (hnames : (ms.map Prod.fst).Nodup) : Json.read s = .ok (.object (Tree.listed ms)) :=
  Json.read_eq_ok_iff.mpr ⟨_, h.1, h.2, Tree.value_object_of_nodup hnames⟩

/-! ## The columns -/

/-- What describes columns of some kinds, taken apart. -/
def kindTrees (kinds : List (String × JsonKind)) : List (Points × Tree) :=
  kinds.map fun c => (c.1, .object [("type", .text c.2.name)])

theorem nodup_kindTrees {kinds : List (String × JsonKind)} (h : (kinds.map Prod.fst).Nodup) :
    ((kindTrees kinds).map Prod.fst).Nodup := by
  have hmap := List.Nodup.map Value.points_injective h
  rw [List.map_map] at hmap
  rw [kindTrees, List.map_map]
  exact hmap

theorem echoes_kindTrees (n : Nat) (kinds : List (String × JsonKind)) :
    List.Forall₂ (EchoesMember (n + 1)) (Members.named (kinds.map fun c => (c.1, typeMember c.2)))
      (kindTrees kinds) := by
  induction kinds with
  | nil => exact .nil
  | cons c kinds ih =>
    exact .cons (echoesMember_text c.1 (Json.echoes_object
      (.cons (echoesMember_text "type" (Json.echoes_text c.2.name)) .nil))) ih

theorem listed_kindTrees (kinds : List (String × JsonKind)) :
    Tree.listed (kindTrees kinds) = Members.named (kinds.map fun c => (c.1, typeMember c.2)) := by
  have hvalue : ∀ kind : JsonKind, (Tree.object [("type", .text kind.name)]).value = typeMember kind := by
    intro kind
    rw [Tree.value_object_singleton, Tree.value_text, Value.ofPoints_string, Value.ofPoints_string, typeMember]
  rw [Tree.listed, Members.keyed, Members.named, kindTrees]
  simp only [List.map_map, Function.comp_def, hvalue, Value.ofPoints_string]

/-- Every known type is of a kind, and the member that describes it says which. -/
theorem exists_kinds {cs : List (String × Value)} (hknown : ∀ c ∈ cs, IsKnown c.2) :
    ∃ kinds : List (String × JsonKind), kinds.map Prod.fst = cs.map Prod.fst ∧
      (cs.map fun c => (c.1, Column.member c.2)) = (kinds.map fun c => (c.1, typeMember c.2)) ∧
      ∀ c ∈ kinds, ∃ type kind, (c.1, type) ∈ cs ∧ ColumnKind.ofValue type = .ok kind ∧ c.2 = kind.json := by
  induction cs with
  | nil => exact ⟨[], rfl, rfl, fun c hc => absurd hc List.not_mem_nil⟩
  | cons c cs ih =>
    obtain ⟨hc, hcs⟩ := List.forall_mem_cons.mp hknown
    obtain ⟨kinds, hnames, hmembers, hkinds⟩ := ih hcs
    obtain ⟨s, kind, htype, hkind⟩ := Column.isKnown_iff.mp hc
    have hmember : Column.member c.2 = typeMember kind.json := by
      rw [htype, Column.member_eq hkind]
      rfl
    refine ⟨(c.1, kind.json) :: kinds, ?_, ?_, List.forall_mem_cons.mpr ⟨?_, fun d hd => ?_⟩⟩
    · rw [List.map_cons, List.map_cons, hnames]
    · rw [List.map_cons, List.map_cons, hmembers, hmember]
    · exact ⟨c.2, kind, List.mem_cons_self, htype ▸ Column.ofValue_of_text hkind, rfl⟩
    · obtain ⟨type, kind', hmem, hrest⟩ := hkinds d hd
      exact ⟨type, kind', List.mem_cons_of_mem _ hmem, hrest⟩

/-- What columns named by texts are written as: one member for each name, of the kind of its last column. -/
theorem exists_kinds_of_columnMembers {cs : List Column} (hnames : ∀ c ∈ cs, ∃ n, c.name = .text n)
    {members : Members} (h : columnMembers cs [] = .ok members) :
    ∃ kinds : List (String × JsonKind), members = Members.named (kinds.map fun c => (c.1, typeMember c.2)) ∧
      kinds.map Prod.fst = (cs.filterMap fun c => c.name.text?).eraseDups ∧
      ∀ c ∈ kinds, ∃ type kind, lastUnder c.1 (typed cs) = some type ∧
        ColumnKind.ofValue type = .ok kind ∧ c.2 = kind.json := by
  have hknown := isKnown_of_columnMembers h
  obtain ⟨kinds, hfst, hmembers, hkinds⟩ := exists_kinds (isKnown_latest hknown)
  rw [columnMembers_nil hnames hknown, hmembers] at h
  cases h
  have htyped : (typed cs).map Prod.fst = cs.filterMap fun c => c.name.text? := by
    rw [typed, List.map_filterMap]
    simp [Function.comp_def]
  refine ⟨kinds, rfl, ?_, fun c hc => ?_⟩
  · rw [hfst, map_fst_latest, htyped]
  · obtain ⟨type, kind, hmem, hrest⟩ := hkinds c hc
    exact ⟨type, kind, mem_latest.mp hmem, hrest⟩

/-! ## The two texts -/

/-- Options of plain values give plain values, whichever are there. -/
theorem plain_findD {options : Members} (h : ∀ p ∈ options, p.2.Plain) (k fallback : String) :
    (options.findD k (.text fallback)).Plain := by
  rw [Members.findD]
  cases hfound : options.find? k with
  | none => exact .text fallback
  | some v =>
    obtain ⟨k', hmem⟩ := Members.mem_of_get? hfound
    exact h _ hmem

section

variable [Json.Nesting]

/-- The text around the comment. -/
theorem shape_of_root {comment d : String} {kinds : List (String × JsonKind)}
    (h : written (root comment (Members.named (kinds.map fun c => (c.1, typeMember c.2)))) = .ok d)
    (hnames : (kinds.map Prod.fst).Nodup) :
    Padded d (.object (rootTrees comment (kindTrees kinds))) ∧
      Json.read d = .ok (root comment (Members.named (kinds.map fun c => (c.1, typeMember c.2)))) := by
  obtain ⟨n, hn⟩ := exists_room
  have hwrites := spells_root h (n := n + 1) hn (echoes_kindTrees n kinds)
  have hcolumns := Tree.value_object_of_nodup (nodup_kindTrees hnames)
  rw [listed_kindTrees] at hcolumns
  refine ⟨hwrites.1, (read_of_nodup hwrites (by simp [rootTrees, commentKey, columnsKey])).trans ?_⟩
  simp only [rootTrees, Tree.listed_cons, hcolumns, root, Tree.value_text, Value.ofPoints_string]
  rfl

/-- The text of the comment. -/
theorem shape_of_metadata {database tablename v : Value} {location : Location} {format : FileFormat}
    {options : Members} {comment : String} (hdatabase : database.Plain) (htablename : tablename.Plain)
    (hoptions : ∀ p ∈ options, p.2.Plain) (hv : Location.ofValue v = .ok location)
    (h : written (metadata database tablename location format options) = .ok comment) :
    ∃ (bucket path : String) (d t header field record : Tree), location = ⟨.text bucket, .text path⟩ ∧
      Padded comment (.object (commentTrees d t bucket path header field record format)) ∧
      Json.read comment = .ok (metadata database tablename ⟨.text bucket, .text path⟩ format options) := by
  obtain ⟨n, bucket, path, d, t, header, field, record, rfl, hd, ht, hheader, hfield, hrecord, hwrites⟩ :=
    spells_metadata hv h
  refine ⟨bucket, path, d, t, header, field, record, rfl, hwrites.1, ?_⟩
  refine (read_of_nodup hwrites (by simp [commentTrees])).trans ?_
  simp only [commentTrees, Tree.listed_cons, hd.value_of_plain hdatabase, ht.value_of_plain htablename,
    value_sources, hheader.value_of_plain (plain_findD hoptions _ _),
    hfield.value_of_plain (plain_findD hoptions _ _), hrecord.value_of_plain (plain_findD hoptions _ _), metadata,
    Tree.value_text, Value.ofPoints_string]
  rfl

/-! ## The shape of a document -/

/-- **A document is an object of four members, and its comment is the text of one of seven.**  It is visible ASCII.
There is one member for each column name, in the order in which the names occur first, and it says no more than the
kind of the last column of this name. -/
theorem encode_shape {database tablename location : Value} {columns : List Column} {options : Members}
    (hdatabase : database.Plain) (htablename : tablename.Plain) (hnames : ∀ c ∈ columns, ∃ n, c.name = .text n)
    (hoptions : ∀ p ∈ options, p.2.Plain) {d : String}
    (h : encode database tablename columns options location = .ok d) :
    Json.AllVisible d.toList ∧
    ∃ (comment bucket path format : String) (kinds : List (String × JsonKind)),
      Json.read d = .ok (.object
        [(.text "$comment", .text comment),
         (.text "description", .text "Format of row of data"),
         (.text "type", .text "object"),
         (.text "properties",
           .object (kinds.map fun c => (.text c.1, .object [(.text "type", .text c.2.name)])))]) ∧
      kinds.map Prod.fst = (columns.filterMap fun c => c.name.text?).eraseDups ∧
      (∀ c ∈ kinds, ∃ type kind, lastUnder c.1 (typed columns) = some type ∧
        ColumnKind.ofValue type = .ok kind ∧ c.2 = kind.json) ∧
      Json.read comment = .ok (.object
        [(.text "database", database),
         (.text "tablename", tablename),
         (.text "sources", .object [(.text bucket, .list [.text path])]),
         (.text "hasHeaderRow", options.findD "has_header_row" (.text "false")),
         (.text "fieldDelimiter", options.findD "field_delimiter" (.text ",")),
         (.text "recordDelimiter", options.findD "record_delimiter" (.text "\n")),
         (.text "objectDataFormat", .text format)]) ∧
      Location.ofValue location = .ok ⟨.text bucket, .text path⟩ ∧
      format ∈ ["csv", "json", "parquet", "text"] ∧
      -- no member of the two texts is hidden behind another of its name
      Padded d (.object
        [("$comment", .text comment), ("description", .text "Format of row of data"), ("type", .text "object"),
         ("properties", .object (kinds.map fun c => (c.1, .object [("type", .text c.2.name)])))]) ∧
      ∃ databaseTree tablenameTree header field record, Padded comment (.object
        [("database", databaseTree), ("tablename", tablenameTree),
         ("sources", .object [(bucket, .list [.text path])]), ("hasHeaderRow", header), ("fieldDelimiter", field),
         ("recordDelimiter", record), ("objectDataFormat", .text format)]) := by
  obtain ⟨format, place, comment, members, -, hplace, hcomment, hmembers, hwritten⟩ := written_of_encode h
  obtain ⟨kinds, rfl, hfst, hkinds⟩ := exists_kinds_of_columnMembers hnames hmembers
  obtain ⟨bucket, path, dt, tt, header, field, record, rfl, hspells, hread⟩ :=
    shape_of_metadata hdatabase htablename hoptions hplace hcomment
  obtain ⟨hrootSpells, hrootRead⟩ := shape_of_root hwritten (hfst ▸ nodup_eraseDups _)
  refine ⟨Json.visible_writeIn _ _ _ (write_of_written hwritten), comment, bucket, path, format.name,
    kinds, ?_, hfst, hkinds, hread, hplace, ?_, hrootSpells, dt, tt, header, field, record, hspells⟩
  · rw [hrootRead, root, Members.named, List.map_map]
    rfl
  · cases format <;> decide

end

section

open Json.Usual

/-- The shape of a document with a quote, a backslash, line ends and a character beyond 16 bits in its names,
and with a column listed twice, which is one member of its last type. -/
theorem encode_shape_escapes :
    ∃ d comment, encode (.text "a\"\n") (.text "\\😀")
        [⟨.text "id\n\"", .text "integer"⟩, ⟨.text "id\n\"", .text "Boolean"⟩]
        [(.text "format", .text "CSV"), (.text "has_header_row", .bool true)] (.text "s3://b/p") = .ok d ∧
      Json.AllVisible d.toList ∧
      Json.read d = .ok (.object
        [(.text "$comment", .text comment), (.text "description", .text "Format of row of data"),
         (.text "type", .text "object"),
         (.text "properties", .object [(.text "id\n\"", .object [(.text "type", .text "boolean")])])]) := by
  let columns : List Column := [⟨.text "id\n\"", .text "integer"⟩, ⟨.text "id\n\"", .text "Boolean"⟩]
  let options : Members := [(.text "format", .text "CSV"), (.text "has_header_row", .bool true)]
  show ∃ d comment, encode (.text "a\"\n") (.text "\\😀") columns options (.text "s3://b/p") = .ok d ∧ _ ∧ _
  have hnames : ∀ c ∈ columns, ∃ n, c.name = .text n := by simp [columns]
  have hoptions : ∀ p ∈ options, p.2.Plain := by
    intro p hp
    simp only [options, List.mem_cons, List.not_mem_nil, or_false] at hp
    rcases hp with rfl | rfl
    · exact .text _
    · exact .bool _
  have hsome :
      (encode (.text "a\"\n") (.text "\\😀") columns options (.text "s3://b/p")).toOption.isSome = true := by
    decide +kernel
  cases hd : encode (.text "a\"\n") (.text "\\😀") columns options (.text "s3://b/p") with
  | error e => rw [hd] at hsome; cases hsome
  | ok d =>
    obtain ⟨hvisible, comment, -, -, -, kinds, hread, hfst, hkinds, -⟩ :=
      encode_shape (.text _) (.text _) hnames hoptions hd
    -- there is one member, of the kind of the second column
    have hone : (columns.filterMap fun c => c.name.text?).eraseDups = ["id\n\""] := rfl
    obtain ⟨⟨name, kind⟩, rfl, rfl⟩ := List.map_eq_singleton_iff.mp (hfst.trans hone)
    obtain ⟨type, kind', hlast, hkind, rfl⟩ := hkinds _ List.mem_cons_self
    have htype : lastUnder "id\n\"" (typed columns) = some (.text "Boolean") := rfl
    rw [htype] at hlast
    cases hlast
    have hboolean : (ColumnKind.ofValue (.text "Boolean")).toOption = some .boolean := by decide +kernel
    rw [hkind] at hboolean
    cases hboolean
    exact ⟨d, comment, rfl, hvisible, hread⟩

end

end SchemaCatalog.Document
