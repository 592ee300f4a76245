/-
  A table that is registered again from what was read of it.

  1. **Again.**  `StoredTable.Again` says which table a caller would build from what was read: names and
     columns as they are, and the options under the names of the properties, in whatever order, with the
     location glued together behind `s3://`.

  2. **Normal forms are final.**  Everything that writing brings into a normal form stays as it is the second
     time: the format is in small letters, booleans are words, the location is split into the same parts,
     each column has one type and that is the name of a kind.  Each of these is one lemma here, on the
     part that it is about.

  3. So the second document is written from the same values as the first, and writing is a function
     (`encodeTable_again`).
-/
import SchemaCatalog.Proofs.Document.RoundTrip
import SchemaCatalog.Proofs.Location
import Mathlib.Data.List.Perm.Basic

namespace SchemaCatalog

open Options (effective?)

/-- The table is built from what was read of another. -/
structure StoredTable.Again (r : StoredTable) (t : Table) : Prop where
  ns : t.ns = r.database
  name : t.name = r.tablename
  columns : t.columns = r.columns
  properties : ∃ format header field record bucket path,
    r.options.find? "objectDataFormat" = some format ∧
    r.options.find? "hasHeaderRow" = some header ∧
    r.options.find? "fieldDelimiter" = some field ∧
    r.options.find? "recordDelimiter" = some record ∧
    r.options.find? "sources" = some (.object [(.text bucket, .list [.text path])]) ∧
    t.properties.Perm (Members.named
      [("format", format), ("has_header_row", header), ("field_delimiter", field),
       ("record_delimiter", record), ("external_location", .text ("s3://" ++ bucket ++ path))])

/-! ## Properties -/

/-- Where names are distinct, the last under a name is the only one, wherever it stands. -/
theorem lastUnder_of_perm {α : Type} {ps qs : List (String × α)} (h : ps.Perm qs)
    (hd : (qs.map Prod.fst).Nodup) (name : String) : lastUnder name ps = lastUnder name qs := by
  have hd' : (ps.map Prod.fst).Nodup := (h.map Prod.fst).nodup_iff.mpr hd
  refine Option.ext fun a => ?_
  rw [← mem_latest, ← mem_latest, latest_of_nodup hd', latest_of_nodup hd]
  exact h.mem_iff

namespace Options

/-- Properties that are listed once each under their own names are in effect, whatever their order. -/
theorem effective?_of_perm {properties : Members} {ps : List (String × Value)}
    (h : properties.Perm (Members.named ps)) (hnames : ∀ p ∈ ps, p.1 ∈ names) (hd : (ps.map Prod.fst).Nodup)
    (name : String) : effective? name properties = (lastUnder name ps).map spelled := by
  have hperm : (lowered properties).Perm (ps.map fun p => (p.1, spelled p.2)) := by
    rw [← lowered_of_mem_names hnames]
    exact h.filterMap _
  rw [effective?, lastUnder_of_perm hperm (by rwa [List.map_map]), lastUnder_map]

@[simp] theorem spelled_text (s : String) : spelled (.text s) = .text s := rfl

/-- A property in effect is spelled out. -/
theorem spelled_effectiveD (name fallback : String) (properties : Members) :
    spelled ((effective? name properties).getD (.text fallback)) =
      (effective? name properties).getD (.text fallback) := by
  cases h : effective? name properties with
  | none => rfl
  | some v =>
    obtain ⟨-, w, -, -, rfl⟩ := exists_of_effective? h
    exact spelled_spelled w

end Options

namespace FileFormat

/-- The name of a format names it. -/
theorem ofName?_name (f : FileFormat) : ofName? f.name = some f := by cases f <;> decide +kernel

end FileFormat

/-! ## Columns -/

namespace Column

/-- A stored type is known, and it is described by the same member. -/
theorem member_storedType {type : Value} (h : IsKnown type) :
    IsKnown (storedType type) ∧ member (storedType type) = member type := by
  obtain ⟨s, k, rfl, hk⟩ := isKnown_iff.mp h
  have hname : ColumnKind.ofName? (ColumnKind.storedName s) = some k.stored := by
    rw [ColumnKind.storedName_eq hk, ColumnKind.ofName?_name]
  have hjson : k.stored.json = k.json := by cases k <;> rfl
  refine ⟨isKnown_iff.mpr ⟨_, _, rfl, hname⟩, ?_⟩
  rw [storedType, member_eq hname, member_eq hk, hjson]

theorem typed_stored (cs : List Column) :
    typed (stored cs) = (latest (typed cs)).map fun c => (c.1, storedType c.2) := by
  rw [typed, stored, List.filterMap_map, ← List.filterMap_eq_map]
  rfl

end Column

namespace Document

open Column

/-- The columns that were read of a table are described like its own. -/
theorem describe_stored {cs : List Column} (htypes : ∀ c ∈ cs, IsKnown c.type) :
    ((latest (typed (stored cs))).map fun c => (c.1, Column.member c.2)) =
      (latest (typed cs)).map fun c => (c.1, Column.member c.2) := by
  have hdistinct : (((latest (typed cs)).map fun c => (c.1, storedType c.2)).map Prod.fst).Nodup := by
    rw [List.map_map]
    exact nodup_latest (typed cs)
  rw [typed_stored, latest_of_nodup hdistinct, List.map_map]
  exact List.map_congr_left fun c hc => by
    rw [Function.comp_apply, (member_storedType (isKnown_latest htypes c hc)).2]

/-- They have names, and types that are known. -/
theorem stored_named_known {cs : List Column} (htypes : ∀ c ∈ cs, IsKnown c.type) :
    ∀ c ∈ stored cs, (∃ n, c.name = .text n) ∧ IsKnown c.type := by
  intro c hc
  obtain ⟨p, hp, rfl⟩ := List.mem_map.mp hc
  exact ⟨⟨p.1, rfl⟩, (member_storedType (isKnown_latest htypes p hp)).1⟩

/-! ## Documents -/

/-- Whether a document is a text or the bytes of one makes no difference. -/
theorem decode_text [Json.Nesting] (d : String) :
    decode (.text d) = decode (.bytes (Text.Utf8.encode d.toList)) := by
  have htext : textOf (.text d) = textOf (.bytes (Text.Utf8.encode d.toList)) := by
    simp only [textOf, Text.Utf8.decode_encode]
  rw [decode, decode, htext]

/-- The options that are stored of a table, by the names they are kept under. -/
theorem find?_storedOptions (t : Table) (format : String) (bucket path : List Char) :
    let options := t.storedOptions format bucket path
    options.find? "objectDataFormat" = some (.text format) ∧
      options.find? "hasHeaderRow" = some ((effective? "has_header_row" t.properties).getD (.text "false")) ∧
      options.find? "fieldDelimiter" = some ((effective? "field_delimiter" t.properties).getD (.text ",")) ∧
      options.find? "recordDelimiter" = some ((effective? "record_delimiter" t.properties).getD (.text "\n")) ∧
      options.find? "sources" =
        some (.object [(.text (String.ofList bucket), .list [.text (String.ofList path)])]) := by
  simp [Table.storedOptions, Members.find?, Members.get?_cons_text]

/-- The properties in effect of a table built from what was stored of another: the format that was stored,
the location put together again, and of the others what was in effect before. -/
theorem effective_of_again {t t' : Table} {columns : List Column} {format : String} {bucket path : List Char}
    (h : StoredTable.Again ⟨t.ns, t.name, columns, t.storedOptions format bucket path⟩ t') :
    (∀ p ∈ t'.properties, ∃ k, p.1 = .text k) ∧
      effective? "format" t'.properties = some (.text format) ∧
      effective? "external_location" t'.properties =
        some (.text ("s3://" ++ String.ofList bucket ++ String.ofList path)) ∧
      effective? "has_header_row" t'.properties =
        some ((effective? "has_header_row" t.properties).getD (.text "false")) ∧
      effective? "field_delimiter" t'.properties =
        some ((effective? "field_delimiter" t.properties).getD (.text ",")) ∧
      effective? "record_delimiter" t'.properties =
        some ((effective? "record_delimiter" t.properties).getD (.text "\n")) := by
  obtain ⟨format', header, field, record, bucket', path', hformat, hheader, hfield, hrecord, hsources, hperm⟩ :=
    h.properties
  obtain ⟨hformat', hheader', hfield', hrecord', hsources'⟩ := find?_storedOptions t format bucket path
  cases hformat.symm.trans hformat'
  cases hheader.symm.trans hheader'
  cases hfield.symm.trans hfield'
  cases hrecord.symm.trans hrecord'
  cases hsources.symm.trans hsources'
  have heffective := Options.effective?_of_perm hperm (by simp [Options.names]) (by simp)
  refine ⟨fun p hp => ?_, ?_, ?_, ?_, ?_, ?_⟩
  · exact Members.keys_named _ p (hperm.mem_iff.mp hp)
  all_goals
    rw [heffective]
    simp [lastUnder, Options.spelled_effectiveD]

/-- What is stored of a table can be built from. -/
theorem exists_again (t : Table) (columns : List Column) (format : String) (bucket path : List Char) :
    ∃ t', StoredTable.Again ⟨t.ns, t.name, columns, t.storedOptions format bucket path⟩ t' := by
  obtain ⟨hformat, hheader, hfield, hrecord, hsources⟩ := find?_storedOptions t format bucket path
  exact ⟨⟨_, _, _, _⟩, rfl, rfl, rfl, _, _, _, _, _, _, hformat, hheader, hfield, hrecord, hsources, .refl _⟩

/-- **Writing again.**  A table built from what was read of a document has that document, character for
character. -/
theorem encodeTable_again [Json.Nesting] {t : Table} (ht : t.Plain) {d : String} (hd : encodeTable t = .ok d) :
    ∃ r, decode (.text d) = .ok r ∧ (∃ t', r.Again t') ∧ ∀ t', r.Again t' → encodeTable t' = .ok d := by
  obtain ⟨r, hr⟩ := stored?_of_encodeTable ht hd
  have hdecode := decode_of_stored? ht hr hd
  obtain ⟨format, location, bucket, path, hformat, hlocation, hsplit, hname, htypes, rfl⟩ :=
    Table.stored?_eq_some.mp hr
  obtain ⟨f, hf⟩ := Option.isSome_iff_exists.mp hname
  have hf' : FileFormat.ofName? (Text.lower format) = some f := by
    rw [← name_of_ofName? hf, FileFormat.ofName?_name]
  refine ⟨_, (decode_text d).trans hdecode, exists_again t _ _ bucket path, fun t' h => ?_⟩
  obtain ⟨hkeys, hformat', hlocation', hheader, hfield, hrecord⟩ := effective_of_again h
  have hcolumns : t'.columns = stored t.columns := h.columns
  have hsplit' : Location.split? ("s3://" ++ String.ofList bucket ++ String.ofList path).toList =
      some (bucket, path) := by
    have hscheme : Uri.isScheme ['s', '3'] = true := by decide
    have hglued := Location.split?_glued hsplit hscheme
    simpa using hglued
  have hcomment : commentOf t' ⟨.text (String.ofList bucket), .text (String.ofList path)⟩ f =
      commentOf t ⟨.text (String.ofList bucket), .text (String.ofList path)⟩ f := by
    simp only [commentOf, h.ns, h.name, hheader, hfield, hrecord, Option.getD_some]
  have hknown : ∀ c ∈ t'.columns, (∃ n, c.name = .text n) ∧ IsKnown c.type := by
    rw [hcolumns]
    exact stored_named_known htypes
  rw [encodeTable_of_effective ht.keys ht.columns htypes hformat hf hlocation hsplit] at hd
  rw [← hd, encodeTable_of_effective hkeys (fun c hc => (hknown c hc).1) (fun c hc => (hknown c hc).2) hformat'
    hf' hlocation' hsplit', hcomment, hcolumns, describe_stored htypes]

section

open Json.Usual

/-- A table that differs from the one it is read back as: its format in capitals, a boolean among its properties,
a column listed twice, and a location of another scheme with a user, a port and a query. -/
theorem encodeTable_again_normalized :
    ∃ t d, t.Plain ∧ encodeTable t = .ok d ∧
      ∃ r, decode (.text d) = .ok r ∧ (∃ t', r.Again t') ∧ ∀ t', r.Again t' → encodeTable t' = .ok d := by
  let t : Table := ⟨.list [.null, .int (-7)], .text "orders",
    [⟨.text "id", .text "double"⟩, ⟨.text "id", .text "Integer"⟩],
    [(.text "FORMAT", .text "CSV"), (.text "has_header_row", .bool true),
     (.text "external_location", .text " gs://u@lake:80/a//b?v=1")]⟩
  have ht : t.Plain := by
    refine ⟨.list _ ?_, .text _, ?_, ?_, ?_⟩
    · intro v hv
      simp only [List.mem_cons, List.not_mem_nil, or_false] at hv
      rcases hv with rfl | rfl
      · exact .null
      · exact .int _ (by decide)
    · simp [t]
    · simp [t]
    · intro p hp k _ _
      simp only [t, List.mem_cons, List.not_mem_nil, or_false] at hp
      rcases hp with rfl | rfl | rfl
      · exact .text _
      · exact .bool true
      · exact .text _
  have hsome : (encodeTable t).toOption.isSome = true := by decide +kernel
  cases hd : encodeTable t with
  | error e => rw [hd] at hsome; cases hsome
  | ok d => exact ⟨t, d, ht, hd, encodeTable_again ht hd⟩

end

end Document

end SchemaCatalog
