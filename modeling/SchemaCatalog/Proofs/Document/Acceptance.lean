/-
  Which documents are read as tables, and how all others fail.

  1. **The format.**  `Describes d t` is the whole format in one rule, by the grammar of JSON and not by a
     reader.  A document holds a text, as it is or by its bytes.  The text is an object whose comment is a text
     that is an object again; what counts is the last member under a name.  The columns are the members
     under `properties`, each at the place of its first and with the type of its last.

  2. **The failures.**  `Refused d kind` lists what can be missing, one rule for each check.  A rule takes
     everything for granted that is checked before, so the rules exclude each other and the kind of the
     failure is that of the first check that is not met.  Each of the two texts has one more rule, for a text
     that nests deeper than there is room for; what stands behind that place has no part in it.

  3. **Reading.**  `decode` succeeds where the format says so (`decode_of_describes`) and fails where a rule
     applies (`decode_of_refused`).  As every document either describes a table or is refused
     (`describes_or_refused`), neither can happen anywhere else.

  4. **Bytes.**  A document in bytes is read as the string whose bytes they are, and not at all if there is none
     (`decode_bytes`).
-/
import SchemaCatalog.Proofs.Json.Depth
import SchemaCatalog.Proofs.Text.Utf8
import SchemaCatalog.Proofs.Document.Options
import SchemaCatalog.Proofs.Document.Columns
import Mathlib.Data.List.Forall2

namespace SchemaCatalog.Document

open Json (Tree Padded TooDeep)
open Text (Points)

/-! ## The format -/

/-- The document is this text, or bytes that are those of the text. -/
inductive Carries : Value → Points → Prop
  | text (s : String) : Carries (.text s) s
  | torn (t : Text.Torn) : Carries (.torn t) t.points
  | bytes (s : List Char) : Carries (.bytes (Text.Utf8.encode s)) (s.map .char)
  | buffer (s : List Char) : Carries (.buffer (Text.Utf8.encode s)) (s.map .char)

/-- The text is that of an object with these members, and there is room to read it. -/
def Writes [Json.Nesting] (s : Points) (ms : List (Points × Tree)) : Prop :=
  Padded s (.object ms) ∧ (Tree.object ms).Within Json.Nesting.deepest

/-- The document carries the text of an object with these members. -/
def HasRoot [Json.Nesting] (d : Value) (root : List (Points × Tree)) : Prop := ∃ s, Carries d s ∧ Writes s root

/-- The comment is a text, and it is that of an object with these members. -/
def HasMetadata [Json.Nesting] (root metadata : List (Points × Tree)) : Prop :=
  ∃ comment, Tree.under commentKey root = some (.text comment) ∧ Writes comment metadata

/-- The description of a column of this kind: an object with a type, which in small letters names the kind. -/
def Types (spec : Tree) (kind : JsonKind) : Prop :=
  ∃ ms, ∃ type : String, spec = .object ms ∧ Tree.under "type" ms = some (.text type) ∧
    Text.lower type = kind.name

/-- The member describes the column. -/
def IsColumn (m : Points × Tree) (c : Column) : Prop :=
  ∃ kind, Types m.2 kind ∧ c = ⟨.ofPoints m.1, .text kind.column.name⟩

/-- The options that the description of a table has. -/
def optionsOf (metadata : List (Points × Tree)) : Members :=
  optionKeys.filterMap fun k => (Tree.under k metadata).map fun t => (.text k, t.value)

/-- The document describes the table. -/
inductive Describes [Json.Nesting] : Value → StoredTable → Prop
  | mk {d : Value} {root metadata properties : List (Points × Tree)} {database tablename : Tree}
    {columns : List Column} (hroot : HasRoot d root) (hmetadata : HasMetadata root metadata)
    (hproperties : Tree.under columnsKey root = some (.object properties))
    (hdatabase : Tree.under "database" metadata = some database)
    (htablename : Tree.under "tablename" metadata = some tablename)
    (hcolumns : List.Forall₂ IsColumn (latest properties) columns) :
    Describes d ⟨database.value, tablename.value, columns, optionsOf metadata⟩

/-! ## The failures -/

/-- What is no description of a column, and the kind of failure that it is. -/
inductive Faulty : Tree → Kind → Prop
  | noObject {spec : Tree} (h : ∀ ms, spec ≠ .object ms) : Faulty spec .missingField
  | untyped {ms : List (Points × Tree)} (h : Tree.under "type" ms = none) : Faulty (.object ms) .missingField
  | unknown {ms : List (Points × Tree)} {type : Tree} (htype : Tree.under "type" ms = some type)
    (h : ∀ s : String, type = .text s → ∀ kind : JsonKind, Text.lower s ≠ kind.name) :
    Faulty (.object ms) .unsupportedType

/-- What is no description of a table, and the kind of failure that it is; the rules are in the order of the
checks. -/
inductive Refused [Json.Nesting] : Value → Kind → Prop
  | deepRoot {d : Value} {s : Points} (hs : Carries d s) (h : TooDeep s) : Refused d .tooDeep
  | noRoot {d : Value} (hdeep : ∀ s, Carries d s → ¬TooDeep s) (h : ∀ root, ¬HasRoot d root) :
    Refused d .unreadable
  | noColumns {d : Value} {root : List (Points × Tree)} (hroot : HasRoot d root)
    (h : Tree.under columnsKey root = none) : Refused d .missingField
  | noComment {d : Value} {root : List (Points × Tree)} {columns : Tree} (hroot : HasRoot d root)
    (hcolumns : Tree.under columnsKey root = some columns) (h : Tree.under commentKey root = none) :
    Refused d .missingField
  | deepMetadata {d : Value} {root : List (Points × Tree)} {columns : Tree} {comment : Points}
    (hroot : HasRoot d root) (hcolumns : Tree.under columnsKey root = some columns)
    (hcomment : Tree.under commentKey root = some (.text comment)) (h : TooDeep comment) : Refused d .tooDeep
  | noMetadata {d : Value} {root : List (Points × Tree)} {columns comment : Tree} (hroot : HasRoot d root)
    (hcolumns : Tree.under columnsKey root = some columns) (hcomment : Tree.under commentKey root = some comment)
    (hdeep : ∀ s, comment = .text s → ¬TooDeep s) (h : ∀ metadata, ¬HasMetadata root metadata) :
    Refused d .unreadable
  | nameless {d : Value} {root metadata : List (Points × Tree)} {columns : Tree} (hroot : HasRoot d root)
    (hcolumns : Tree.under columnsKey root = some columns) (hmetadata : HasMetadata root metadata)
    (h : Tree.under "database" metadata = none ∨ Tree.under "tablename" metadata = none) :
    Refused d .missingField
  | noMembers {d : Value} {root metadata : List (Points × Tree)} {columns database tablename : Tree}
    (hroot : HasRoot d root) (hcolumns : Tree.under columnsKey root = some columns)
    (hmetadata : HasMetadata root metadata) (hdatabase : Tree.under "database" metadata = some database)
    (htablename : Tree.under "tablename" metadata = some tablename) (h : ∀ ms, columns ≠ .object ms) :
    Refused d .unreadable
  | faulty {d : Value} {root metadata properties before after : List (Points × Tree)}
    {database tablename : Tree} {m : Points × Tree} {kind : Kind} (hroot : HasRoot d root)
    (hproperties : Tree.under columnsKey root = some (.object properties))
    (hmetadata : HasMetadata root metadata) (hdatabase : Tree.under "database" metadata = some database)
    (htablename : Tree.under "tablename" metadata = some tablename)
    (hsplit : latest properties = before ++ m :: after) (hbefore : ∀ m ∈ before, ∃ kind, Types m.2 kind)
    (h : Faulty m.2 kind) : Refused d kind

/-! ## The parts of a document -/

/-- The text of bytes is the one whose bytes they are. -/
theorem decode_utf8_eq_ok_iff {bs : List UInt8} {ps : Points} :
    (match Text.Utf8.decode bs with
      | .error f => .error (Unreadable.notUtf8 f)
      | .ok s => .ok (s.map .char)) = Except.ok ps ↔
      ∃ s : List Char, bs = Text.Utf8.encode s ∧ ps = s.map .char := by
  cases hread : Text.Utf8.decode bs with
  | error f =>
    refine ⟨fun h => (by cases h), ?_⟩
    rintro ⟨s, rfl, -⟩
    rw [Text.Utf8.decode_encode] at hread
    cases hread
  | ok s =>
    constructor
    · intro h
      exact ⟨s, Text.Utf8.decode_eq_ok_iff.mp hread, (Except.ok.inj h).symm⟩
    · rintro ⟨s', hs', rfl⟩
      rw [Text.Utf8.decode_eq_ok_iff.mpr hs'] at hread
      cases hread
      rfl

theorem textOf_eq_ok_iff {d : Value} {ps : Points} : textOf d = .ok ps ↔ Carries d ps := by
  constructor
  · intro h
    cases d with
    | text t => cases h; exact .text t
    | torn t => cases h; exact .torn t
    | bytes bs => obtain ⟨s, rfl, rfl⟩ := decode_utf8_eq_ok_iff.mp h; exact .bytes s
    | buffer bs => obtain ⟨s, rfl, rfl⟩ := decode_utf8_eq_ok_iff.mp h; exact .buffer s
    | _ => cases h
  · intro h
    cases h with
    | text t => rfl
    | torn t => rfl
    | bytes s | buffer s => exact decode_utf8_eq_ok_iff.mpr ⟨s, rfl, rfl⟩

/-- Only an object has members as its value. -/
theorem exists_object_of_value {t : Tree} {members : Members} (h : t.value = .object members) :
    ∃ ms, t = .object ms ∧ members = Tree.table ms := by
  cases t with
  | object ms =>
    rw [Tree.value_object] at h
    exact ⟨ms, rfl, (Value.object.inj h).symm⟩
  | scalar v hv =>
    rw [Tree.value] at h
    subst h
    exact hv.elim
  | text s =>
    rw [Tree.value_text] at h
    unfold Value.ofPoints at h
    split at h <;> cases h
  | list items => rw [Tree.value_list] at h; cases h

/-- Only a text has a text as its value. -/
theorem text_of_points? {t : Tree} {ps : Points} (h : t.value.points? = some ps) : t = .text ps := by
  cases t with
  | text ps' =>
    rw [Tree.value_text, Value.points?_ofPoints] at h
    rw [Option.some.inj h]
  | scalar v hv =>
    rw [Tree.value] at h
    cases v <;> first | (cases h; done) | exact hv.elim
  | list items => rw [Tree.value_list] at h; cases h
  | object ms => rw [Tree.value_object] at h; cases h

theorem text_of_value {t : Tree} {s : String} (h : t.value = .text s) : t = .text s :=
  text_of_points? (by rw [h]; rfl)

section

variable [Json.Nesting]

theorem readPart_eq_ok_iff {part : Part} {s : Points} {members : Members} :
    readPart part s = .ok members ↔ ∃ ms, Writes s ms ∧ members = Tree.table ms := by
  constructor
  · intro h
    unfold readPart at h
    split at h
    · cases h
    · rename_i members' hread
      cases h
      obtain ⟨t, ht, hroom, hvalue⟩ := Json.read_eq_ok_iff.mp hread
      obtain ⟨ms, rfl, rfl⟩ := exists_object_of_value hvalue
      exact ⟨ms, ⟨ht, hroom⟩, rfl⟩
    · cases h
  · rintro ⟨ms, ⟨hs, hroom⟩, rfl⟩
    rw [readPart, Json.read_eq_ok_iff.mpr ⟨_, hs, hroom, Tree.value_object ms⟩]

theorem readPart_of_tooDeep (part : Part) {s : Points} (h : TooDeep s) :
    ∃ why, readPart part s = .error why ∧ why.kind = .tooDeep := by
  obtain ⟨f, hf, hdeep⟩ := Json.read_deep_iff.mpr h
  refine ⟨.ofFault part s f, by rw [readPart, hf], ?_⟩
  rw [Unreadable.ofFault, if_pos hdeep]
  rfl

/-- What is no text of an object is unreadable, if it is not too deep. -/
theorem readPart_of_not (part : Part) {s : Points} (hdeep : ¬TooDeep s) (h : ∀ ms, ¬Writes s ms) :
    ∃ why, readPart part s = .error why ∧ why.kind = .unreadable := by
  cases hread : readPart part s with
  | ok members =>
    obtain ⟨ms, hms, -⟩ := readPart_eq_ok_iff.mp hread
    exact absurd hms (h ms)
  | error why =>
    refine ⟨why, rfl, ?_⟩
    unfold readPart at hread
    split at hread
    · rename_i f hf
      cases hread
      rw [Unreadable.ofFault, if_neg fun hd => hdeep (Json.read_deep_iff.mp ⟨f, hf, hd⟩)]
      rfl
    · cases hread
    · cases hread; rfl

end

/-- What is found in an object is the value of the last member under the name. -/
theorem find?_table (k : String) (ms : List (Points × Tree)) :
    (Tree.table ms).find? k = (Tree.under k ms).map Tree.value := by
  rw [Tree.table, ← latest_map, Members.find?, ← Value.ofPoints_string,
    Members.get?_keyed_latest Value.same_ofPoints, lastUnder_map, Tree.under]

theorem required_table {part : Part} {k : String} {ms : List (Points × Tree)} {t : Tree}
    (h : Tree.under k ms = some t) : required part k (Tree.table ms) = .ok t.value := by
  rw [required, find?_table, h]
  rfl

theorem required_error {part : Part} {k : String} {ms : List (Points × Tree)} (h : Tree.under k ms = none) :
    required part k (Tree.table ms) = .error (.missing part k) := by
  rw [required, find?_table, h]
  rfl

theorem readOptions_table (metadata : List (Points × Tree)) :
    readOptions (Tree.table metadata) = optionsOf metadata := by
  simp only [readOptions, optionsOf, find?_table, Option.map_map, Function.comp_def]

theorem get?_filterMap_text (f : String → Option Value) (k : String) (keys : List String) :
    Members.get? (.text k) (keys.filterMap fun k => (f k).map fun v => (.text k, v)) =
      if k ∈ keys then f k else none := by
  induction keys with
  | nil => rfl
  | cons j keys ih =>
    rw [List.filterMap_cons]
    by_cases hk : k = j
    · subst hk
      cases hf : f k with
      | some v => simp [Members.get?_cons_text]
      | none => simp [ih, hf]
    · cases hf : f j with
      | some v => simp [Members.get?_cons_text, ih, hk]
      | none => simp [ih, hk]

/-- What is found among the options is what the description says. -/
theorem find?_optionsOf {k : String} (hk : k ∈ optionKeys) (metadata : List (Points × Tree)) :
    (optionsOf metadata).find? k = (Tree.under k metadata).map Tree.value := by
  have hoptions : optionsOf metadata =
      optionKeys.filterMap fun k => ((Tree.under k metadata).map Tree.value).map fun v => (.text k, v) := by
    simp only [optionsOf, Option.map_map, Function.comp_def]
  rw [hoptions, Members.find?, get?_filterMap_text, if_pos hk]

/-! ## Columns -/

/-- The value of a member with its name. -/
def member (m : Points × Tree) : Value × Value := (.ofPoints m.1, m.2.value)

theorem readColumn_of_isColumn {m : Points × Tree} {c : Column} (h : IsColumn m c) :
    readColumn (member m) = .ok c := by
  obtain ⟨n, spec⟩ := m
  obtain ⟨kind, ⟨ms, type, rfl, htype, hkind⟩, rfl⟩ := h
  have hfind : (Tree.table ms).find? "type" = some (.text type) := by
    rw [find?_table, htype, Option.map_some, Tree.value_text, Value.ofPoints_string]
  simp only [member, readColumn, Tree.value_object, hfind, JsonKind.read, Value.text?, Option.bind_some,
    JsonKind.ofName?_eq_some.mpr hkind]

theorem readColumn_of_faulty {n : Points} {spec : Tree} {kind : Kind} (h : Faulty spec kind) :
    ∃ why, readColumn (member (n, spec)) = .error why ∧ why.kind = kind := by
  cases h with
  | noObject h =>
    refine ⟨.untypedColumn (.ofPoints n), ?_, rfl⟩
    unfold readColumn member
    split
    · rename_i hvalue
      obtain ⟨ms, rfl, -⟩ := exists_object_of_value hvalue
      exact absurd rfl (h ms)
    · rfl
  | @untyped ms h =>
    have hfind : (Tree.table ms).find? "type" = none := by rw [find?_table, h]; rfl
    exact ⟨.untypedColumn (.ofPoints n), by simp only [member, readColumn, Tree.value_object, hfind], rfl⟩
  | @unknown ms type htype h =>
    have hfind : (Tree.table ms).find? "type" = some type.value := by rw [find?_table, htype]; rfl
    have hread : JsonKind.read type.value = .error (.unknownType type.value) := by
      unfold JsonKind.read
      split
      · rename_i kind hkind
        obtain ⟨s, hs, hname⟩ := Option.bind_eq_some_iff.mp hkind
        have htext : type.value = .text s := by
          cases hv : type.value <;> rw [hv] at hs <;> cases hs
          rfl
        exact absurd (JsonKind.ofName?_eq_some.mp hname) (h s (text_of_value htext) kind)
      · rfl
    exact ⟨.unknownType type.value, by simp only [member, readColumn, Tree.value_object, hfind, hread], rfl⟩

/-- A member describes a column of some kind, or it is faulty. -/
theorem types_or_faulty (spec : Tree) : (∃ kind, Types spec kind) ∨ ∃ kind, Faulty spec kind := by
  by_cases hobject : ∃ ms, spec = .object ms
  · obtain ⟨ms, rfl⟩ := hobject
    cases htype : Tree.under "type" ms with
    | none => exact .inr ⟨_, .untyped htype⟩
    | some type =>
      by_cases hkind : ∃ s : String, type = .text s ∧ ∃ kind : JsonKind, Text.lower s = kind.name
      · obtain ⟨s, rfl, kind, hkind⟩ := hkind
        exact .inl ⟨kind, ms, s, rfl, htype, hkind⟩
      · exact .inr ⟨_, .unknown htype fun s hs kind hname => hkind ⟨s, hs, kind, hname⟩⟩
  · exact .inr ⟨_, .noObject fun ms hms => hobject ⟨ms, hms⟩⟩

theorem readColumns_of_isColumn {ms : List (Points × Tree)} {cs : List Column}
    (h : List.Forall₂ IsColumn ms cs) : readColumns (ms.map member) = .ok cs := by
  induction h with
  | nil => rfl
  | cons hm _ ih => rw [List.map_cons, readColumns, readColumn_of_isColumn hm, ih]

/-- The first member that is faulty decides. -/
theorem readColumns_of_faulty {before : List (Points × Tree)} {m : Points × Tree} {kind : Kind}
    (after : List (Points × Tree)) (hbefore : ∀ m ∈ before, ∃ kind, Types m.2 kind) (h : Faulty m.2 kind) :
    ∃ why, readColumns ((before ++ m :: after).map member) = .error why ∧ why.kind = kind := by
  induction before with
  | nil =>
    obtain ⟨why, hwhy, hkind⟩ := readColumn_of_faulty (n := m.1) h
    refine ⟨why, ?_, hkind⟩
    rw [List.nil_append, List.map_cons, readColumns, hwhy]
  | cons b before ih =>
    obtain ⟨⟨kb, hb⟩, hrest⟩ := List.forall_mem_cons.mp hbefore
    obtain ⟨why, hwhy, hkind⟩ := ih hrest
    refine ⟨why, ?_, hkind⟩
    rw [List.cons_append, List.map_cons, readColumns, readColumn_of_isColumn ⟨kb, hb, rfl⟩, hwhy]

/-- Either all members describe columns, or there is a first one that does not. -/
theorem columns_or_faulty (ms : List (Points × Tree)) :
    (∃ cs, List.Forall₂ IsColumn ms cs) ∨
      ∃ before m after kind, ms = before ++ m :: after ∧ (∀ m ∈ before, ∃ kind, Types m.2 kind) ∧
        Faulty m.2 kind := by
  induction ms with
  | nil => exact .inl ⟨[], .nil⟩
  | cons m ms ih =>
    rcases types_or_faulty m.2 with ⟨kind, hkind⟩ | ⟨kind, hfaulty⟩
    · rcases ih with ⟨cs, hcs⟩ | ⟨before, m', after, kind', rfl, hbefore, hfaulty⟩
      · exact .inl ⟨_ :: cs, .cons ⟨kind, hkind, rfl⟩ hcs⟩
      · exact .inr ⟨m :: before, m', after, kind', rfl, List.forall_mem_cons.mpr ⟨⟨kind, hkind⟩, hbefore⟩, hfaulty⟩
    · exact .inr ⟨[], m, ms, kind, rfl, fun m hm => absurd hm List.not_mem_nil, hfaulty⟩

/-! ## Whole documents -/

theorem readColumns_table (ms : List (Points × Tree)) :
    readColumns (Tree.table ms) = readColumns ((latest ms).map member) := by
  rw [Tree.table, Members.keyed, List.map_map]
  rfl

/-- What is no text is unreadable. -/
theorem kind_of_textOf {d : Value} {why : Unreadable} (h : textOf d = .error why) : why.kind = .unreadable := by
  unfold textOf at h
  split at h
  · cases h
  · cases h
  · split at h <;> cases h
    rfl
  · split at h <;> cases h
    rfl
  · cases h; rfl

section

variable [Json.Nesting]

/-- The two steps that lead to the members of a document. -/
theorem read_root {d : Value} {root : List (Points × Tree)} (h : HasRoot d root) :
    ∃ s, textOf d = .ok s ∧ readPart .document s = .ok (Tree.table root) := by
  obtain ⟨s, hs, hroot⟩ := h
  exact ⟨s, textOf_eq_ok_iff.mpr hs, readPart_eq_ok_iff.mpr ⟨root, hroot, rfl⟩⟩

/-- The steps of reading behind the two texts, on what they are about. -/
theorem decode_eq {d : Value} {root metadata : List (Points × Tree)} {columns database tablename : Tree}
    (hroot : HasRoot d root) (hcolumns : Tree.under columnsKey root = some columns)
    (hmetadata : HasMetadata root metadata) (hdatabase : Tree.under "database" metadata = some database)
    (htablename : Tree.under "tablename" metadata = some tablename) :
    decode d = do
      let members ← match columns.value with
        | .object members => .ok members
        | _ => .error (.notMembers columnsKey)
      let columns ← readColumns members
      return ⟨database.value, tablename.value, columns, optionsOf metadata⟩ := by
  obtain ⟨s, htext, hdocument⟩ := read_root hroot
  obtain ⟨comment, hcomment, hmetadata⟩ := hmetadata
  have hpart : readPart .metadata comment = .ok (Tree.table metadata) :=
    readPart_eq_ok_iff.mpr ⟨_, hmetadata, rfl⟩
  have hvalue : (Tree.text comment).value.points? = some comment := by rw [Tree.value_text, Value.points?_ofPoints]
  cases hshape : columns.value <;>
    simp only [decode, htext, hdocument, required_table hcolumns, required_table hcomment, hvalue, hpart,
      required_table hdatabase, required_table htablename, readOptions_table, hshape, bind, Except.bind]

theorem decode_of_describes {d : Value} {t : StoredTable} (h : Describes d t) : decode d = .ok t := by
  obtain ⟨hroot, hmetadata, hproperties, hdatabase, htablename, hcolumns⟩ := h
  rw [decode_eq hroot hproperties hmetadata hdatabase htablename, Tree.value_object]
  simp only [bind, Except.bind, readColumns_table, readColumns_of_isColumn hcolumns]
  rfl

/-- Each rule is met by the check that it is about, and no check before that one fails. -/
theorem decode_of_refused {d : Value} {kind : Kind} (h : Refused d kind) :
    ∃ why, decode d = .error why ∧ why.kind = kind := by
  cases h with
  | deepRoot hs h =>
    obtain ⟨why, hwhy, hkind⟩ := readPart_of_tooDeep .document h
    exact ⟨why, by simp only [decode, textOf_eq_ok_iff.mpr hs, hwhy, bind, Except.bind], hkind⟩
  | noRoot hdeep h =>
    cases htext : textOf d with
    | error why =>
      exact ⟨why, by simp only [decode, htext, bind, Except.bind], kind_of_textOf htext⟩
    | ok s =>
      have hs := textOf_eq_ok_iff.mp htext
      obtain ⟨why, hwhy, hkind⟩ := readPart_of_not .document (hdeep s hs) fun root hroot => h root ⟨s, hs, hroot⟩
      exact ⟨why, by simp only [decode, htext, hwhy, bind, Except.bind], hkind⟩
  | noColumns hroot h =>
    obtain ⟨s, htext, hdocument⟩ := read_root hroot
    refine ⟨.missing .document columnsKey, ?_, rfl⟩
    simp only [decode, htext, hdocument, required_error h, bind, Except.bind]
  | noComment hroot hcolumns h =>
    obtain ⟨s, htext, hdocument⟩ := read_root hroot
    refine ⟨.missing .document commentKey, ?_, rfl⟩
    simp only [decode, htext, hdocument, required_table hcolumns, required_error h, bind, Except.bind]
  | @deepMetadata root _ comment hroot hcolumns hcomment h =>
    obtain ⟨s, htext, hdocument⟩ := read_root hroot
    obtain ⟨why, hwhy, hkind⟩ := readPart_of_tooDeep .metadata h
    refine ⟨why, ?_, hkind⟩
    simp only [decode, htext, hdocument, required_table hcolumns, required_table hcomment, Tree.value_text,
      Value.points?_ofPoints, hwhy, bind, Except.bind]
  | @noMetadata root _ comment hroot hcolumns hcomment hdeep h =>
    obtain ⟨s, htext, hdocument⟩ := read_root hroot
    simp only [decode, htext, hdocument, required_table hcolumns, required_table hcomment, bind, Except.bind]
    cases hvalue : comment.value.points? with
    | some c =>
      obtain rfl := text_of_points? hvalue
      obtain ⟨why, hwhy, hkind⟩ := readPart_of_not .metadata (hdeep c rfl) fun metadata hmetadata =>
        h metadata ⟨c, hcomment, hmetadata⟩
      exact ⟨why, by simp only [hwhy], hkind⟩
    | none => exact ⟨.notString commentKey, rfl, rfl⟩
  | @nameless root metadata _ hroot hcolumns hmetadata h =>
    obtain ⟨s, htext, hdocument⟩ := read_root hroot
    obtain ⟨comment, hcomment, hmetadata⟩ := hmetadata
    have hpart : readPart .metadata comment = .ok (Tree.table metadata) :=
      readPart_eq_ok_iff.mpr ⟨_, hmetadata, rfl⟩
    have hvalue : (Tree.text comment).value.points? = some comment := by
      rw [Tree.value_text, Value.points?_ofPoints]
    simp only [decode, htext, hdocument, required_table hcolumns, required_table hcomment, hvalue, hpart,
      bind, Except.bind]
    cases hdatabase : Tree.under "database" metadata with
    | none => exact ⟨.missing .metadata "database", by simp only [required_error hdatabase], rfl⟩
    | some database =>
      have htablename : Tree.under "tablename" metadata = none := by
        rcases h with h | h
        · rw [hdatabase] at h; cases h
        · exact h
      exact ⟨.missing .metadata "tablename",
        by simp only [required_table hdatabase, required_error htablename], rfl⟩
  | @noMembers root metadata columns _ _ hroot hcolumns hmetadata hdatabase htablename h =>
    refine ⟨.notMembers columnsKey, ?_, rfl⟩
    rw [decode_eq hroot hcolumns hmetadata hdatabase htablename]
    cases hvalue : columns.value with
    | object members =>
      obtain ⟨ms, hms, -⟩ := exists_object_of_value hvalue
      exact absurd hms (h ms)
    | _ => rfl
  | @faulty root metadata properties before after _ _ m _ hroot hproperties hmetadata hdatabase htablename
      hsplit hbefore h =>
    obtain ⟨why, hwhy, hkind⟩ := readColumns_of_faulty after hbefore h
    refine ⟨why, ?_, hkind⟩
    rw [decode_eq hroot hproperties hmetadata hdatabase htablename, Tree.value_object]
    simp only [bind, Except.bind, readColumns_table, hsplit, hwhy]

/-- Every document describes a table or is refused: the checks one after the other. -/
theorem describes_or_refused (d : Value) : (∃ t, Describes d t) ∨ ∃ kind, Refused d kind := by
  by_cases hdeep : ∃ s, Carries d s ∧ TooDeep s
  · obtain ⟨s, hs, hdeep⟩ := hdeep
    exact .inr ⟨_, .deepRoot hs hdeep⟩
  by_cases hroot : ∃ root, HasRoot d root
  swap
  · exact .inr ⟨_, .noRoot (fun s hs h => hdeep ⟨s, hs, h⟩) fun root h => hroot ⟨root, h⟩⟩
  obtain ⟨root, hroot⟩ := hroot
  cases hcolumns : Tree.under columnsKey root with
  | none => exact .inr ⟨_, .noColumns hroot hcolumns⟩
  | some columns =>
  cases hcomment : Tree.under commentKey root with
  | none => exact .inr ⟨_, .noComment hroot hcolumns hcomment⟩
  | some comment =>
  by_cases hdeep : ∃ s, comment = .text s ∧ TooDeep s
  · obtain ⟨s, rfl, hdeep⟩ := hdeep
    exact .inr ⟨_, .deepMetadata hroot hcolumns hcomment hdeep⟩
  by_cases hmetadata : ∃ metadata, HasMetadata root metadata
  swap
  · exact .inr ⟨_, .noMetadata hroot hcolumns hcomment (fun s hs h => hdeep ⟨s, hs, h⟩)
      fun metadata h => hmetadata ⟨metadata, h⟩⟩
  obtain ⟨metadata, hmetadata⟩ := hmetadata
  cases hdatabase : Tree.under "database" metadata with
  | none => exact .inr ⟨_, .nameless hroot hcolumns hmetadata (.inl hdatabase)⟩
  | some database =>
  cases htablename : Tree.under "tablename" metadata with
  | none => exact .inr ⟨_, .nameless hroot hcolumns hmetadata (.inr htablename)⟩
  | some tablename =>
  by_cases hobject : ∃ properties, columns = .object properties
  swap
  · exact .inr ⟨_, .noMembers hroot hcolumns hmetadata hdatabase htablename fun ms h => hobject ⟨ms, h⟩⟩
  obtain ⟨properties, rfl⟩ := hobject
  rcases columns_or_faulty (latest properties) with ⟨cs, hcs⟩ | ⟨before, m, after, kind, hsplit, hbefore, hfaulty⟩
  · exact .inl ⟨_, .mk hroot hmetadata hcolumns hdatabase htablename hcs⟩
  · exact .inr ⟨kind, .faulty hroot hcolumns hmetadata hdatabase htablename hsplit hbefore hfaulty⟩

/-- What is read as a table describes it: it is not refused. -/
theorem describes_of_decode {d : Value} {t : StoredTable} (h : decode d = .ok t) : Describes d t := by
  rcases describes_or_refused d with ⟨t', ht'⟩ | ⟨kind, hkind⟩
  · rw [decode_of_describes ht'] at h
    cases h
    exact ht'
  · obtain ⟨why, hwhy, -⟩ := decode_of_refused hkind
    rw [hwhy] at h
    cases h

/-- What is not read as a table is refused for the kind of its failure: it describes none. -/
theorem refused_of_decode {d : Value} {why : Unreadable} (h : decode d = .error why) : Refused d why.kind := by
  rcases describes_or_refused d with ⟨t, ht⟩ | ⟨kind, hkind⟩
  · rw [decode_of_describes ht] at h
    cases h
  · obtain ⟨why', hwhy', rfl⟩ := decode_of_refused hkind
    rw [h] at hwhy'
    cases hwhy'
    exact hkind

/-- **Reading documents.**  A document is read as a table exactly if it describes the table; all others fail
with the kind of the first check that is not met, which is one of three, or for their depth. -/
theorem decode_exact (d : Value) :
    (∀ t, decode d = .ok t ↔ Describes d t) ∧
    (∀ kind, (∃ why, decode d = .error why ∧ why.kind = kind) ↔ Refused d kind) ∧
    ∀ kind, Refused d kind →
      kind = .unreadable ∨ kind = .missingField ∨ kind = .unsupportedType ∨ kind = .tooDeep := by
  refine ⟨fun t => ⟨describes_of_decode, decode_of_describes⟩, fun kind => ⟨?_, decode_of_refused⟩,
    fun kind h => ?_⟩
  · rintro ⟨why, hwhy, rfl⟩
    exact refused_of_decode hwhy
  · obtain ⟨why, -, rfl⟩ := decode_of_refused h
    cases why <;> simp [Unreadable.kind]

/-- Lists inside one another are refused for their depth if they are more than there is room for. -/
theorem decode_brackets {n : Nat} (h : Json.Nesting.deepest < n) :
    ∃ why, decode (.text (Json.brackets n)) = .error why ∧ why.kind = .tooDeep :=
  decode_of_refused (.deepRoot (.text _) (Json.tooDeep_brackets h))

end

section

open Json.Usual

/-- Nothing is wrong with the text of a document of 1200 lists inside one another but that it is no object, and
yet this is not how it fails. -/
theorem not_only_declared_kinds :
    ¬∀ d why, decode d = .error why →
      why.kind = .unreadable ∨ why.kind = .missingField ∨ why.kind = .unsupportedType := by
  intro h
  obtain ⟨why, hwhy, hdeep⟩ := decode_brackets (show Json.Nesting.deepest < 1200 by decide)
  have hkind := h _ why hwhy
  rw [hdeep] at hkind
  rcases hkind with hkind | hkind | hkind <;> cases hkind

end

/-! ## Documents in bytes -/

section

variable [Json.Nesting]

/-- **Bytes are read as the text they are.**  It makes no difference whether they are fixed or in a buffer.  If
they are those of a string, the document is read as the string is, with the same table or the same failure; if
they are those of no string, the document is unreadable. -/
theorem decode_bytes (bs : List UInt8) :
    decode (.buffer bs) = decode (.bytes bs) ∧
    (∀ s : String, s.toUTF8 = bs.toByteArray → decode (.bytes bs) = decode (.text s)) ∧
    ((∀ s : String, s.toUTF8 ≠ bs.toByteArray) →
      ∃ fault, decode (.bytes bs) = .error (.notUtf8 fault) ∧ (Unreadable.notUtf8 fault).kind = .unreadable) := by
  refine ⟨rfl, fun s hs => ?_, fun hs => ?_⟩
  · have htext : textOf (.bytes bs) = textOf (.text s) := by
      rw [Text.Utf8.toUTF8_eq_iff.mp hs, textOf_eq_ok_iff.mpr (.bytes s.toList)]
      rfl
    rw [decode, htext, ← decode]
  · cases hread : Text.Utf8.decode bs with
    | ok s =>
      -- the text that is read would have these bytes
      refine absurd (Text.Utf8.toUTF8_eq_iff.mpr ?_) (hs (String.ofList s))
      rw [String.toList_ofList]
      exact Text.Utf8.decode_eq_ok_iff.mp hread
    | error fault =>
      have htext : textOf (.bytes bs) = .error (.notUtf8 fault) := by rw [textOf, hread]
      refine ⟨fault, ?_, rfl⟩
      rw [decode, htext]
      rfl

end

section

open Json.Usual

/-- The two bytes of a letter, and three that would be those of a surrogate. -/
theorem decode_bytes_surrogate :
    "é".toUTF8 = [0xC3, 0xA9].toByteArray ∧ decode (.bytes [0xC3, 0xA9]) = decode (.text "é") ∧
    (∀ s : String, s.toUTF8 ≠ [0xED, 0xA0, 0x80].toByteArray) ∧
      ∃ why, decode (.bytes [0xED, 0xA0, 0x80]) = .error why ∧ why.kind = .unreadable := by
  have hletter : "é".toUTF8 = [0xC3, 0xA9].toByteArray := Text.Utf8.toUTF8_eq_iff.mpr rfl
  have hsurrogate : ∀ s : String, s.toUTF8 ≠ [0xED, 0xA0, 0x80].toByteArray := by
    intro s hs
    have hread := Text.Utf8.decode_eq_ok_iff.mpr (Text.Utf8.toUTF8_eq_iff.mp hs)
    have hrefused : Text.Utf8.decode [0xED, 0xA0, 0x80] = .error (.continuation 0 [0xED]) := rfl
    rw [hrefused] at hread
    cases hread
  obtain ⟨fault, hfault, hkind⟩ := (decode_bytes [0xED, 0xA0, 0x80]).2.2 hsurrogate
  exact ⟨hletter, (decode_bytes [0xC3, 0xA9]).2.1 "é" hletter, hsurrogate, _, hfault, hkind⟩

end

end SchemaCatalog.Document
