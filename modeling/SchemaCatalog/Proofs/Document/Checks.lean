/-
  The checks that a table passes before it has a document, and which of them is told.

  A table is asked for four things, in this order: a format that is known, some location, a location that can be
  taken apart, and columns of known types.  `Table.HasFormat`, `Table.HasLocation`, `Table.IsLocated` and
  `Table.HasTypes` say them without running anything, in terms of the properties in effect.

  If its parts are plain, only their depth can keep a table from being written that passes the checks; so it has
  a document exactly if the four hold and its parts are not too deep (`encodeTable_checks`).  Otherwise the
  first that does not hold is told, whatever is wrong behind it: `encodeTable_eq` has the checks in their order,
  and each lemma here passes one more.
-/
import SchemaCatalog.Proofs.Document.RoundTrip
import SchemaCatalog.Proofs.Location

namespace SchemaCatalog

open Options (effective?)

/-! ## Names of formats and types -/

theorem FileFormat.isSome_ofName? {s : String} :
    (FileFormat.ofName? s).isSome ↔ Text.lower s ∈ ["csv", "json", "parquet", "text"] := by
  simp [FileFormat.ofName?, FileFormat.all, FileFormat.name]

/-- A value is a format or is refused as one. -/
theorem FileFormat.ofValue_cases (v : Value) :
    (∃ s f, v = .text s ∧ FileFormat.ofName? s = some f ∧ FileFormat.ofValue v = .ok f) ∨
      (∀ s, v = .text s → FileFormat.ofName? s = none) ∧ FileFormat.ofValue v = .error (.unsupportedFormat v) := by
  cases hformat : FileFormat.ofValue v with
  | ok f =>
    obtain ⟨s, hs, hname⟩ := Document.text_of_ofValue hformat
    exact .inl ⟨s, f, hs, hname, rfl⟩
  | error e =>
    refine .inr ⟨?_, ?_⟩
    · rintro s rfl
      cases hname : FileFormat.ofName? s with
      | none => rfl
      | some f => simp [FileFormat.ofValue, FileFormat.ofValue?, Value.text?, hname] at hformat
    · unfold FileFormat.ofValue at hformat
      split at hformat
      · cases hformat
      · exact hformat.symm

/-- A text that names a type of column, in whatever letter case. -/
def Column.IsTypeName (type : Value) : Prop :=
  ∃ s, type = .text s ∧ Text.upper s ∈ ["VARCHAR", "DOUBLE", "BIGINT", "INTEGER", "BOOLEAN"]

/-- The type of a column stands for a kind exactly if it is the name of one. -/
theorem Column.isKnown_iff_isTypeName {type : Value} : Column.IsKnown type ↔ Column.IsTypeName type := by
  cases type <;>
    simp [Column.IsKnown, Column.IsTypeName, Value.text?, ColumnKind.ofName?, ColumnKind.all, ColumnKind.name]

/-! ## What a table is asked for -/

namespace Table

/-- The format in effect is a text that names a known one. -/
def HasFormat (t : Table) : Prop :=
  ∃ s, effective? "format" t.properties = some (.text s) ∧ Text.lower s ∈ ["csv", "json", "parquet", "text"]

/-- One of the properties is a location, in whatever letter case. -/
def HasLocation (t : Table) : Prop :=
  ∃ k v, (.text k, v) ∈ t.properties ∧ Text.lower k = "external_location"

/-- The location in effect is a text with a bucket and a path. -/
def IsLocated (t : Table) : Prop :=
  ∃ s bucket path : String, effective? "external_location" t.properties = some (.text s) ∧
    Location.ofValue (.text s) = .ok ⟨.text bucket, .text path⟩

/-- The type of every column is known. -/
def HasTypes (t : Table) : Prop := ∀ c ∈ t.columns, Column.IsTypeName c.type

variable {t : Table}

/-- Something is stored of a table exactly if it has all that it is asked for. -/
theorem stored?_isSome_iff : (∃ s, t.stored? = some s) ↔ t.HasFormat ∧ t.IsLocated ∧ t.HasTypes := by
  constructor
  · rintro ⟨s, hs⟩
    obtain ⟨format, location, bucket, path, hformat, hlocation, hsplit, hname, htypes, -⟩ := stored?_eq_some.mp hs
    refine ⟨⟨format, hformat, FileFormat.isSome_ofName?.mp hname⟩,
      ⟨location, String.ofList bucket, String.ofList path, hlocation, Location.ofValue_text ?_⟩,
      fun c hc => Column.isKnown_iff_isTypeName.mp (htypes c hc)⟩
    rw [hsplit, String.toList_ofList, String.toList_ofList]
  · rintro ⟨⟨format, hformat, hname⟩, ⟨location, bucket, path, hlocation, hplace⟩, htypes⟩
    exact ⟨_, stored?_eq_some.mpr ⟨format, location, bucket.toList, path.toList, hformat, hlocation,
      Location.split?_of_ofValue hplace, FileFormat.isSome_ofName?.mpr hname,
      fun c hc => Column.isKnown_iff_isTypeName.mpr (htypes c hc), rfl⟩⟩

/-- A table has a location if its properties have a value under that name. -/
theorem hasLocation_iff : t.HasLocation ↔ ∃ v, effective? "external_location" t.properties = some v := by
  constructor
  · rintro ⟨k, v, hmem, hk⟩
    refine Option.isSome_iff_exists.mp (lastUnder_isSome.mpr ?_)
    rw [List.mem_map]
    refine ⟨(Text.lower k, Options.spelled v), ?_, hk⟩
    rw [Options.lowered, List.mem_filterMap]
    exact ⟨_, hmem, rfl⟩
  · rintro ⟨v, hv⟩
    obtain ⟨k, w, hmem, hk, -⟩ := Options.exists_of_effective? hv
    exact ⟨k, w, hmem, hk⟩

theorem IsLocated.hasLocation (h : t.IsLocated) : t.HasLocation :=
  let ⟨_, _, _, hlocation, _⟩ := h
  hasLocation_iff.mpr ⟨_, hlocation⟩

end Table

namespace Document

variable {t : Table}

/-! ## Depth -/

/-- Of a table with a format and a location, the comment that fits shows that its parts do. -/
theorem fits_of_within_commentOf [Json.Nesting] {format location : String}
    (hformat : effective? "format" t.properties = some (.text format))
    (hlocation : effective? "external_location" t.properties = some (.text location)) {bucket path : String}
    {f : FileFormat} (h : (Value.object (Members.named (commentOf t ⟨.text bucket, .text path⟩ f))).Within
      Json.Nesting.deepest) : t.Fits := by
  obtain ⟨n, hn, hmembers⟩ := Value.within_named.mp h
  have hpred : Json.Nesting.deepest - 1 = n := by rw [hn]; rfl
  simp only [commentOf, List.forall_mem_cons] at hmembers
  obtain ⟨hns, hname, -, hheader, hfield, hrecord, -⟩ := hmembers
  refine ⟨hpred ▸ hns, hpred ▸ hname, fun k hk v hv => ?_⟩
  rw [hpred]
  simp only [Options.names, List.mem_cons, List.not_mem_nil, or_false] at hk
  rcases hk with rfl | rfl | rfl | rfl | rfl
  · rw [hformat] at hv
    cases hv
    exact Value.within_scalar rfl
  · rwa [hv] at hfield
  · rwa [hv] at hrecord
  · rwa [hv] at hheader
  · rw [hlocation] at hv
    cases hv
    exact Value.within_scalar rfl

/-! ## The checks one by one -/

/-- A table with a format goes on to the next check. -/
theorem exists_format (h : t.HasFormat) :
    ∃ f, FileFormat.ofValue ((effective? "format" t.properties).getD .null) = .ok f := by
  obtain ⟨s, heffective, hname⟩ := h
  obtain ⟨f, hf⟩ := Option.isSome_iff_exists.mp (FileFormat.isSome_ofName?.mpr hname)
  exact ⟨f, by rw [heffective, Option.getD_some, FileFormat.ofValue, FileFormat.ofValue?, Value.text?,
    Option.bind_some, hf]⟩

/-- The first column of an unknown type is told. -/
theorem columnMembers_unknown {before after : List Column} {c : Column} {s : String}
    (hnames : ∀ b ∈ before, ∃ n, b.name = .text n) (hbefore : ∀ b ∈ before, Column.IsKnown b.type)
    (hs : c.type = .text s) (hc : ¬Column.IsKnown c.type) (ms : Members) :
    columnMembers (before ++ c :: after) ms = .error (.unknownColumnType (.text s)) := by
  induction before generalizing ms with
  | nil =>
    have hnone : ColumnKind.ofName? s = none := by
      cases hname : ColumnKind.ofName? s with
      | none => rfl
      | some k => exact absurd (Column.isKnown_iff.mpr ⟨s, k, hs, hname⟩) hc
    rw [List.nil_append, columnMembers, hs]
    simp only [ColumnKind.ofValue, Value.text?, Option.bind_some, hnone]
  | cons b before ih =>
    obtain ⟨⟨n, hn⟩, hnames⟩ := List.forall_mem_cons.mp hnames
    obtain ⟨hb, hbefore⟩ := List.forall_mem_cons.mp hbefore
    obtain ⟨s', k, htype, hk⟩ := Column.isKnown_iff.mp hb
    rw [List.cons_append, columnMembers, htype, hn, Column.ofValue_of_text hk]
    exact ih hnames hbefore _

/-- Of several columns with unknown types one is the first. -/
theorem exists_first_unknown {cs : List Column} (h : ¬∀ c ∈ cs, Column.IsTypeName c.type) :
    ∃ before c after, cs = before ++ c :: after ∧ (∀ b ∈ before, Column.IsTypeName b.type) ∧
      ¬Column.IsTypeName c.type := by
  induction cs with
  | nil => exact absurd (fun c hc => by cases hc) h
  | cons c cs ih =>
    by_cases hc : Column.IsTypeName c.type
    · have hrest : ¬∀ d ∈ cs, Column.IsTypeName d.type := fun hall => h (List.forall_mem_cons.mpr ⟨hc, hall⟩)
      obtain ⟨before, d, after, rfl, hbefore, hd⟩ := ih hrest
      exact ⟨c :: before, d, after, rfl, List.forall_mem_cons.mpr ⟨hc, hbefore⟩, hd⟩
    · exact ⟨[], c, cs, rfl, fun b hb => absurd hb List.not_mem_nil, hc⟩

section

variable [Json.Nesting]

/-- The format is the first thing to be checked. -/
theorem encodeTable_of_not_hasFormat (ht : t.Plain) (h : ¬t.HasFormat) :
    encodeTable t = .error (.unsupportedFormat ((effective? "format" t.properties).getD .null)) := by
  obtain ⟨s, f, hs, hname, -⟩ | ⟨-, hrefused⟩ :=
    FileFormat.ofValue_cases ((effective? "format" t.properties).getD .null)
  · refine absurd ⟨s, ?_, FileFormat.isSome_ofName?.mp (by rw [hname]; rfl)⟩ h
    cases heffective : effective? "format" t.properties with
    | none => rw [heffective] at hs; cases hs
    | some v => rw [heffective] at hs; exact congrArg some hs
  · rw [encodeTable_eq ht.keys, hrefused]

/-- The second is that there is a location. -/
theorem encodeTable_of_not_hasLocation (ht : t.Plain) (hformat : t.HasFormat) (h : ¬t.HasLocation) :
    encodeTable t = .error (.noLocation t.ns t.name) := by
  obtain ⟨f, hf⟩ := exists_format hformat
  have hnone : effective? "external_location" t.properties = none := by
    rw [Option.eq_none_iff_forall_ne_some]
    exact fun v hv => h (Table.hasLocation_iff.mpr ⟨v, hv⟩)
  rw [encodeTable_eq ht.keys, hf, hnone]

/-- The third is that the location is one. -/
theorem encodeTable_of_not_isLocated (ht : t.Plain) (hformat : t.HasFormat) (hlocation : t.HasLocation)
    (h : ¬t.IsLocated) : ∃ v, encodeTable t = .error (.invalidLocation v) := by
  obtain ⟨f, hf⟩ := exists_format hformat
  obtain ⟨v, hv⟩ := Table.hasLocation_iff.mp hlocation
  refine ⟨v, ?_⟩
  have hrefused : Location.ofValue v = .error (.invalidLocation v) := by
    cases hplace : Location.ofValue v with
    | error e =>
      unfold Location.ofValue at hplace
      split at hplace
      · cases hplace
      · exact hplace.symm
    | ok place =>
      -- of the plain values only a text could be a location, and then the table would be located
      obtain ⟨s, bucket, path, rfl, hsplit⟩ := text_of_location (ht.effective (by decide) hv) hplace
      refine absurd ⟨s, String.ofList bucket, String.ofList path, hv, Location.ofValue_text ?_⟩ h
      rw [hsplit, String.toList_ofList, String.toList_ofList]
  rw [encodeTable_eq ht.keys, hf, hv]
  simp only [hrefused]

theorem encodeTable_of_unknown (ht : t.Plain) (hformat : t.HasFormat) (hlocated : t.IsLocated)
    {before after : List Column} {c : Column} {s : String} (hcolumns : t.columns = before ++ c :: after)
    (hbefore : ∀ b ∈ before, Column.IsTypeName b.type) (hs : c.type = .text s) (hc : ¬Column.IsTypeName c.type) :
    encodeTable t = .error (.unknownColumnType (.text s)) := by
  obtain ⟨f, hf⟩ := exists_format hformat
  obtain ⟨location, bucket, path, hlocation, hplace⟩ := hlocated
  have hmembers : columnMembers t.columns [] = .error (.unknownColumnType (.text s)) := by
    rw [hcolumns]
    refine columnMembers_unknown (fun b hb => ht.columns b ?_)
      (fun b hb => Column.isKnown_iff_isTypeName.mpr (hbefore b hb)) hs
      (fun h => hc (Column.isKnown_iff_isTypeName.mp h)) []
    rw [hcolumns]
    exact List.mem_append_left _ hb
  rw [encodeTable_eq ht.keys, hf, hlocation]
  simp only [hplace, hmembers]

theorem encodeTable_of_not_fits (ht : t.Plain) (hformat : t.HasFormat) (hlocated : t.IsLocated)
    (hknown : t.HasTypes) (h : ¬t.Fits) : encodeTable t = .error .tooDeep := by
  obtain ⟨format, heffective, hname⟩ := hformat
  obtain ⟨location, bucket, path, hlocation, hplace⟩ := hlocated
  obtain ⟨f, hf⟩ := Option.isSome_iff_exists.mp (FileFormat.isSome_ofName?.mpr hname)
  have hdeep : ¬(Value.object (Members.named (commentOf t
      ⟨.text (String.ofList bucket.toList), .text (String.ofList path.toList)⟩ f))).Within Json.Nesting.deepest :=
    fun hroom => h (fits_of_within_commentOf heffective hlocation hroom)
  rw [encodeTable_of_effective ht.keys ht.columns (fun c hc => Column.isKnown_iff_isTypeName.mpr (hknown c hc))
    heffective hf hlocation (Location.split?_of_ofValue hplace), written_of_deep (plain_commentOf ht _ _ f) hdeep]

/-! ## All of them -/

/-- **A table has a document if it passes four checks and fits, and the first check that it fails is told.**  Its
format must be known, it must have a location, this must be one, and its columns must be of known types. -/
theorem encodeTable_checks (ht : t.Plain) (htypes : ∀ c ∈ t.columns, ∃ s, c.type = .text s) :
    ((∃ d, encodeTable t = .ok d) ↔ (t.HasFormat ∧ t.HasLocation ∧ t.IsLocated ∧ t.HasTypes) ∧ t.Fits) ∧
    (t.HasFormat → t.HasLocation → t.IsLocated → t.HasTypes → ¬t.Fits → encodeTable t = .error .tooDeep) ∧
    (t.Fits →
      (¬t.HasFormat → ∃ e, encodeTable t = .error e ∧ e.kind = .unsupportedFormat) ∧
      (t.HasFormat → ¬t.HasLocation → ∃ e, encodeTable t = .error e ∧ e.kind = .configuration) ∧
      (t.HasFormat → t.HasLocation → ¬t.IsLocated → ∃ e, encodeTable t = .error e ∧ e.kind = .invalidLocation) ∧
      (t.HasFormat → t.HasLocation → t.IsLocated → ¬t.HasTypes →
        ∃ before c after s e, t.columns = before ++ c :: after ∧ (∀ b ∈ before, Column.IsTypeName b.type) ∧
          c.type = .text s ∧ ¬Column.IsTypeName c.type ∧
          encodeTable t = .error e ∧ e.kind = .unsupportedType ∧
            e.message = "Unsupported column type: " ++ s)) := by
  refine ⟨⟨?_, ?_⟩, ?_, fun _ => ⟨?_, ?_, ?_, ?_⟩⟩
  · rintro ⟨d, hd⟩
    obtain ⟨hformat, hlocated, hknown⟩ := Table.stored?_isSome_iff.mp (stored?_of_encodeTable ht hd)
    refine ⟨⟨hformat, hlocated.hasLocation, hlocated, hknown⟩, ?_⟩
    by_contra hfits
    rw [encodeTable_of_not_fits ht hformat hlocated hknown hfits] at hd
    cases hd
  · rintro ⟨⟨hformat, -, hlocated, hknown⟩, hfits⟩
    obtain ⟨s, hs⟩ := Table.stored?_isSome_iff.mpr ⟨hformat, hlocated, hknown⟩
    exact exists_document ht hfits hs
  · intro hformat _ hlocated hknown hfits
    exact encodeTable_of_not_fits ht hformat hlocated hknown hfits
  · intro h
    exact ⟨_, encodeTable_of_not_hasFormat ht h, rfl⟩
  · intro hformat h
    exact ⟨_, encodeTable_of_not_hasLocation ht hformat h, rfl⟩
  · intro hformat hlocation h
    obtain ⟨v, hv⟩ := encodeTable_of_not_isLocated ht hformat hlocation h
    exact ⟨_, hv, rfl⟩
  · intro hformat _ hlocated h
    obtain ⟨before, c, after, hcolumns, hbefore, hc⟩ := exists_first_unknown h
    obtain ⟨s, hs⟩ := htypes c (by rw [hcolumns]; exact List.mem_append_right _ List.mem_cons_self)
    exact ⟨before, c, after, s, _, hcolumns, hbefore, hs, hc,
      encodeTable_of_unknown ht hformat hlocated hcolumns hbefore hs hc, rfl, rfl⟩

end

section

open Json.Usual

/-- A table with its format under two spellings has a document.  With no path in its location it has none, and
this is told although a column is of an unknown type, too. -/
theorem encodeTable_checks_location :
    ∃ t t' : Table, t.Plain ∧ (∃ d, encodeTable t = .ok d) ∧ t'.Plain ∧ ¬t'.IsLocated ∧ ¬t'.HasTypes ∧
      ∃ e, encodeTable t' = .error e ∧ e.kind = .invalidLocation := by
  let table (location type : String) : Table := ⟨.text "sales", .text "orders", [⟨.text "id", .text type⟩],
    [(.text "format", .null), (.text "External_Location", .text location), (.text "FORMAT", .text "Csv")]⟩
  have hplain : ∀ location type, (table location type).Plain := by
    intro location type
    refine ⟨.text _, .text _, by simp [table], by simp [table], ?_⟩
    intro p hp k _ _
    simp only [table, List.mem_cons, List.not_mem_nil, or_false] at hp
    rcases hp with rfl | rfl | rfl
    · exact .null
    · exact .text _
    · exact .text _
  have htext : ∀ location type, ∀ c ∈ (table location type).columns, ∃ s, c.type = .text s := by simp [table]
  have hlocation : ∀ location type,
      effective? "external_location" (table location type).properties = some (.text location) := fun _ _ => rfl
  have hformat : ∀ location type, (table location type).HasFormat := fun _ _ => ⟨"Csv", rfl, by decide +kernel⟩
  have hlocated : (table "s3://mybucket/orders/" "bigint").IsLocated :=
    ⟨_, "mybucket", "/orders/", hlocation _ _, Location.ofValue_text rfl⟩
  have hknown : (table "s3://mybucket/orders/" "bigint").HasTypes := by
    intro c hc
    rw [List.mem_singleton.mp hc]
    exact ⟨"bigint", rfl, by decide +kernel⟩
  have hnot : ¬(table "s3://mybucket" "blob").IsLocated := by
    rintro ⟨s, bucket, path, hs, hplace⟩
    rw [hlocation] at hs
    cases hs
    have hnone : Location.split? "s3://mybucket".toList = none := rfl
    rw [Location.split?_of_ofValue hplace] at hnone
    cases hnone
  have hunknown : ¬(table "s3://mybucket" "blob").HasTypes := by
    intro h
    obtain ⟨s, hs, hname⟩ := h _ List.mem_cons_self
    cases hs
    exact absurd hname (by decide +kernel)
  have hfits : ∀ location type, (table location type).Fits := by
    intro location type
    refine ⟨Value.within_scalar rfl, Value.within_scalar rfl, fun k _ v hv => ?_⟩
    obtain ⟨k', w, hmem, -, rfl⟩ := Options.exists_of_effective? hv
    simp only [table, List.mem_cons, Prod.mk.injEq, List.not_mem_nil, or_false] at hmem
    rcases hmem with ⟨-, rfl⟩ | ⟨-, rfl⟩ | ⟨-, rfl⟩ <;> exact Value.within_scalar rfl
  refine ⟨table "s3://mybucket/orders/" "bigint", table "s3://mybucket" "blob", hplain _ _, ?_, hplain _ _, hnot,
    hunknown, ?_⟩
  · exact (encodeTable_checks (hplain _ _) (htext _ _)).1.mpr
      ⟨⟨hformat _ _, hlocated.hasLocation, hlocated, hknown⟩, hfits _ _⟩
  · exact ((encodeTable_checks (hplain _ _) (htext _ _)).2.2 (hfits _ _)).2.2.1 (hformat _ _)
      (Table.hasLocation_iff.mpr ⟨_, hlocation _ _⟩) hnot

/-- A table whose namespace is a list in a list, and so on for 1500 lists, has all that a table is asked for.
It has no document. -/
theorem not_always_written :
    let t : Table := ⟨Value.nested 1500, .text "orders", [⟨.text "id", .text "bigint"⟩],
      [(.text "format", .text "csv"), (.text "external_location", .text "s3://mybucket/orders/")]⟩
    t.Plain ∧ (t.HasFormat ∧ t.HasLocation ∧ t.IsLocated ∧ t.HasTypes) ∧ encodeTable t = .error .tooDeep := by
  intro t
  have hplain : t.Plain := by
    refine ⟨Value.plain_nested 1500, .text _, by simp [t], by simp [t], ?_⟩
    intro p hp k _ _
    simp only [t, List.mem_cons, List.not_mem_nil, or_false] at hp
    rcases hp with rfl | rfl <;> exact .text _
  have hformat : t.HasFormat := ⟨"csv", rfl, by decide +kernel⟩
  have hlocated : t.IsLocated := ⟨_, "mybucket", "/orders/", rfl, Location.ofValue_text rfl⟩
  have hknown : t.HasTypes := by
    intro c hc
    rw [List.mem_singleton.mp hc]
    exact ⟨"bigint", rfl, by decide +kernel⟩
  refine ⟨hplain, ⟨hformat, hlocated.hasLocation, hlocated, hknown⟩, ?_⟩
  exact encodeTable_of_not_fits hplain hformat hlocated hknown fun hfits =>
    Value.not_within_nested (by decide) hfits.ns

end

end Document

end SchemaCatalog
