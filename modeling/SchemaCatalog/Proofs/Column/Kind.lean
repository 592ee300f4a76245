/-
  Which texts name a kind of column, a kind of member or a format.

  All three are looked up in any letter case: columns in capitals, members and formats in small letters.  The
  lookup goes over all of Unicode, so it is not plain that nothing but the letters of ASCII can name anything.

  For members and formats it is so: no name in small letters has a `k`, the one letter that something outside of
  ASCII can become.  For columns it is not quite: no name in capitals has an `S` or an `F`, but some have an
  `I`, which is the capital of `ı`, too.  So `bıgınt` names a kind, and besides such texts nothing does that
  should not.
-/
import SchemaCatalog.Proofs.Document.Columns
import SchemaCatalog.Proofs.Document.Options
import SchemaCatalog.Proofs.Text.Letters

namespace SchemaCatalog

variable {s : String}

namespace ColumnKind

/-- A text names a kind of column exactly if it is its name up to the case of letters of ASCII, `ı` read as `i`. -/
theorem ofName?_eq_some_iff {k : ColumnKind} : ofName? s = some k ↔ (Text.dotted s).toUpper = k.name := by
  have hname : Text.asciiWithout ['S', 'F'] k.name = true := by cases k <;> rfl
  rw [ofName?_eq_some, Text.upper_eq_iff hname]

theorem ofValue_text (s : String) : ofValue (.text s) =
    match ofName? s with
    | some k => .ok k
    | none => .error (.unknownColumnType (.text s)) := rfl

end ColumnKind

namespace JsonKind

/-- A text names a kind of member exactly if it is its name up to the case of letters of ASCII. -/
theorem ofName?_eq_some_iff {k : JsonKind} : ofName? s = some k ↔ s.toLower = k.name := by
  have hname : Text.asciiWithout ['k'] k.name = true := by cases k <;> rfl
  rw [ofName?_eq_some, Text.lower_eq_iff hname]

theorem ofValue_text (s : String) : ofValue (.text s) =
    match ofName? s with
    | some k => .ok k
    | none => .error (.unreadable (.unknownType (.text s))) := by
  show (read (.text s)).mapError Failure.unreadable = _
  rw [read, Value.text?, Option.bind_some]
  cases ofName? s <;> rfl

end JsonKind

/-- A text names a format exactly if it is its name up to the case of letters of ASCII. -/
theorem FileFormat.ofName?_eq_some_iff {f : FileFormat} : ofName? s = some f ↔ s.toLower = f.name := by
  have hname : Text.asciiWithout ['k'] f.name = true := by cases f <;> rfl
  rw [ofName?_eq_some, Text.lower_eq_iff hname]

/-- **The names that are taken, and no others.**  The kind in a document and the type of the field of a column
are found exactly if the type of the column, with `ı` read as `i`, is the name of its kind up to the case of
letters of ASCII (`String.toUpper` changes no others).  The kind of column of a member is found exactly if its
type is the name of its kind up to the case of letters of ASCII, and it is so with formats.  Types that are not
found are unsupported. -/
theorem names_taken (s : String) :
    (∀ k : ColumnKind, (Text.dotted s).toUpper = k.name →
      (ColumnKind.ofValue (.text s)).map ColumnKind.json = .ok k.json ∧
        (ColumnKind.ofValue (.text s)).map ColumnKind.field = .ok k.field) ∧
    ((∀ k : ColumnKind, (Text.dotted s).toUpper ≠ k.name) →
      (ColumnKind.ofValue (.text s)).map ColumnKind.json = .error (.unknownColumnType (.text s)) ∧
        (ColumnKind.ofValue (.text s)).map ColumnKind.field = .error (.unknownColumnType (.text s))) ∧
    (∀ k : JsonKind, s.toLower = k.name → (JsonKind.ofValue (.text s)).map JsonKind.column = .ok k.column) ∧
    ((∀ k : JsonKind, s.toLower ≠ k.name) →
      (JsonKind.ofValue (.text s)).map JsonKind.column = .error (.unreadable (.unknownType (.text s)))) ∧
    ((FileFormat.ofValue? (.text s)).isSome ↔ ∃ f : FileFormat, s.toLower = f.name) ∧
    (Failure.unknownColumnType (.text s)).kind = .unsupportedType ∧
    (Failure.unreadable (.unknownType (.text s))).kind = .unsupportedType := by
  refine ⟨fun k hk => ?_, fun h => ?_, fun k hk => ?_, fun h => ?_, ?_, rfl, rfl⟩
  · rw [ColumnKind.ofValue_text, ColumnKind.ofName?_eq_some_iff.mpr hk]
    exact ⟨rfl, rfl⟩
  · have hnone : ColumnKind.ofName? s = none :=
      Option.eq_none_iff_forall_ne_some.mpr fun k hk => h k (ColumnKind.ofName?_eq_some_iff.mp hk)
    rw [ColumnKind.ofValue_text, hnone]
    exact ⟨rfl, rfl⟩
  · rw [JsonKind.ofValue_text, JsonKind.ofName?_eq_some_iff.mpr hk]
    rfl
  · have hnone : JsonKind.ofName? s = none :=
      Option.eq_none_iff_forall_ne_some.mpr fun k hk => h k (JsonKind.ofName?_eq_some_iff.mp hk)
    rw [JsonKind.ofValue_text, hnone]
    rfl
  · show (FileFormat.ofName? s).isSome ↔ _
    simp only [Option.isSome_iff_exists, FileFormat.ofName?_eq_some_iff]

/-- With `ı` for `i` a kind of column is named, but no kind of member. -/
theorem names_taken_dotless :
    (ColumnKind.ofValue (.text "Bıgınt")).map ColumnKind.json = .ok .integer ∧
    (ColumnKind.ofValue (.text "ſtring")).map ColumnKind.json = .error (.unknownColumnType (.text "ſtring")) ∧
    (JsonKind.ofValue (.text "Integer")).map JsonKind.column = .ok .bigint ∧
    (JsonKind.ofValue (.text "ınteger")).map JsonKind.column =
      .error (.unreadable (.unknownType (.text "ınteger"))) ∧
    (FileFormat.ofValue? (.text "CSV")).isSome :=
  ⟨((names_taken "Bıgınt").1 .bigint (by decide +kernel)).1,
    ((names_taken "ſtring").2.1 fun k => by cases k <;> decide +kernel).1,
    (names_taken "Integer").2.2.1 .integer (by decide +kernel),
    (names_taken "ınteger").2.2.2.1 fun k => by cases k <;> decide +kernel,
    (names_taken "CSV").2.2.2.2.1.mpr ⟨.csv, by decide +kernel⟩⟩

/-- Not only the letters of ASCII name a kind of column: `bıgınt` is taken for `BIGINT`. -/
theorem not_only_letters_of_ascii :
    ¬∀ s : String,
      ((∃ kind, (ColumnKind.ofValue (.text s)).map ColumnKind.json = .ok kind) ↔
        ∃ k : ColumnKind, s.toUpper = k.name) ∧
      ((∃ type, (ColumnKind.ofValue (.text s)).map ColumnKind.field = .ok type) ↔
        ∃ k : ColumnKind, s.toUpper = k.name) := by
  intro h
  have htaken : ColumnKind.ofName? "bıgınt" = some .bigint :=
    ColumnKind.ofName?_eq_some_iff.mpr (by decide +kernel)
  have hjson : (ColumnKind.ofValue (.text "bıgınt")).map ColumnKind.json = .ok .integer := by
    rw [ColumnKind.ofValue_text, htaken]
    rfl
  obtain ⟨k, hk⟩ := (h "bıgınt").1.mp ⟨_, hjson⟩
  have hcapitals : "bıgınt".toUpper = "BıGıNT" := by decide +kernel
  rw [hcapitals] at hk
  cases k <;> exact absurd hk (by decide)

end SchemaCatalog
