/-
  The schemas of tables read from documents.

  A schema can fail for two reasons that a caller's fields may give it: a type that is no column's, and a name
  that is there already.  Columns read from a document give it neither.  Their types are names of kinds, and
  their names are those of the members of an object, each of which is read once.  So every such table has a
  schema: one optional field for each member, numbered from one in the order of the members.

  The names are texts of any kind.  A document may well spell halves of characters by number, and then they are
  names like all others, each different from every other half and from the mark that shows it.
-/
import SchemaCatalog.Snapshot.Entry
import SchemaCatalog.Proofs.Document.Acceptance
import Mathlib.Data.List.Nodup

namespace SchemaCatalog

open Text (Points Spelled)

/-! ## Schemas of given fields -/

/-- Behind different names no name is repeated exactly if all of them differ. -/
theorem repeatedName?_eq_none {earlier : List FullName} (h : (earlier.map FullName.name).Nodup)
    (ns : List FullName) :
    repeatedName? earlier ns = none ↔ ((earlier ++ ns).map FullName.name).Nodup := by
  induction ns generalizing earlier with
  | nil => rw [List.append_nil]; exact ⟨fun _ => h, fun _ => rfl⟩
  | cons n ns ih =>
    rw [repeatedName?]
    cases hfound : earlier.find? fun e => e.name == n.name with
    | some e =>
      have hsame := List.find?_some hfound
      refine ⟨fun h => (by cases h), fun hnodup => ?_⟩
      rw [List.map_append, List.nodup_append] at hnodup
      exact absurd (beq_iff_eq.mp hsame) (hnodup.2.2 _ (List.mem_map_of_mem (List.mem_of_find?_eq_some hfound)) _
        List.mem_cons_self)
    | none =>
      have hnew : ((earlier ++ [n]).map FullName.name).Nodup := by
        rw [List.map_append, List.nodup_append]
        refine ⟨h, List.nodup_singleton _, ?_⟩
        rintro _ hm _ hn rfl
        obtain ⟨e, he, heq⟩ := List.mem_map.mp hm
        exact List.find?_eq_none.mp hfound e he (beq_iff_eq.mpr (heq.trans (List.mem_singleton.mp hn)))
      have hrest := ih hnew
      rwa [List.append_assoc, List.singleton_append] at hrest

/-- A schema is made of fields whose full names differ, and of no others. -/
theorem Schema.ofFields_eq_ok {ν : Type} [Spelled ν] {fields : List (Field ν FieldType)} {s : Schema ν} :
    Schema.ofFields fields = .ok s ↔ ((fullNames fields).map FullName.name).Nodup ∧ s = ⟨fields⟩ := by
  have hempty : (([] : List FullName).map FullName.name).Nodup := List.nodup_nil
  have hnone := repeatedName?_eq_none hempty (fullNames fields)
  rw [List.nil_append] at hnone
  rw [← hnone]
  unfold Schema.ofFields
  cases repeatedName? [] (fullNames fields) with
  | some f => exact ⟨fun h => (by cases h), fun h => (by cases h.1)⟩
  | none => exact ⟨fun h => ⟨rfl, (Except.ok.inj h).symm⟩, fun h => by rw [h.2]⟩

/-- A type that stands for a column kind is that of the kind. -/
theorem FieldType.column?_eq_some {t : FieldType} {k : ColumnKind} : t.column? = some k ↔ t = k.field := by
  constructor
  · intro h
    cases t <;> cases h <;> rfl
  · rintro rfl
    exact FieldType.column?_field k

/-- Fields of columns hold no others, so their full names are their names. -/
theorem map_name_fullNames {ν : Type} [Spelled ν] {fields : List (Field ν FieldType)}
    (h : ∀ f ∈ fields, ∃ k : ColumnKind, f.type = k.field) :
    (fullNames fields).map FullName.name = fields.map fun f => Spelled.points f.name := by
  induction fields with
  | nil => rfl
  | cons f fs ih =>
    obtain ⟨⟨k, hk⟩, hfs⟩ := List.forall_mem_cons.mp h
    have hinside : FieldType.namesIn [Spelled.points f.name] f.type = [] := by rw [hk]; cases k <;> rfl
    have hname : Text.glued (.char '.') ([] ++ [Spelled.points f.name]) = Spelled.points f.name := by
      simp [Text.glued]
    rw [fullNames, List.flatMap_cons, ← fullNames, hinside, List.nil_append, List.map_append, ih hfs,
      FullName.under, hname]
    rfl

/-! ## Fields of columns that were read -/

/-- Optional fields with these names and types, numbered from `n`. -/
def numbered (n : Nat) (cs : List (Points × FieldType)) : List (Field Points FieldType) :=
  (cs.zipIdx n).map fun c => ⟨c.2, c.1.1, false, c.1.2⟩

/-- The column read from a member with a name and a kind. -/
def Column.ofMember (c : Points × JsonKind) : Column := ⟨.ofPoints c.1, .text c.2.column.name⟩

/-- The field that shows it, by name and type. -/
def fieldOfMember (c : Points × JsonKind) : Points × FieldType := (c.1, c.2.column.field)

theorem fieldsFrom_ofMember (n : Nat) (cs : List (Points × JsonKind)) :
    Entry.fieldsFrom n (cs.map Column.ofMember) = .ok (numbered n (cs.map fieldOfMember)) := by
  induction cs generalizing n with
  | nil => rfl
  | cons c cs ih =>
    have hkind : ColumnKind.ofValue (.text c.2.column.name) = .ok c.2.column :=
      Column.ofValue_of_text (ColumnKind.ofName?_name c.2.column)
    rw [List.map_cons, Entry.fieldsFrom]
    simp only [Column.ofMember, hkind, Entry.fieldName, Value.points?_ofPoints]
    rw [ih (n + 1)]
    rfl

theorem map_name_numbered (n : Nat) (cs : List (Points × FieldType)) :
    (numbered n cs).map Field.name = cs.map Prod.fst := by
  induction cs generalizing n with
  | nil => rfl
  | cons c cs ih => exact congrArg (c.1 :: ·) (ih (n + 1))

/-- A table with such columns has a schema, the fields that show them. -/
theorem Entry.schema_ofMember {e : Entry} (htable : e.isNamespace = false) {cs : List (Points × JsonKind)}
    (hcolumns : e.columns = cs.map Column.ofMember) (hnames : (cs.map Prod.fst).Nodup) :
    e.schema = .ok ⟨numbered 1 (cs.map fieldOfMember)⟩ := by
  have htypes : ∀ f ∈ numbered 1 (cs.map fieldOfMember), ∃ k : ColumnKind, f.type = k.field := by
    intro f hf
    obtain ⟨⟨c, n⟩, hc, rfl⟩ := List.mem_map.mp hf
    obtain ⟨m, -, rfl⟩ := List.mem_map.mp (List.fst_mem_of_mem_zipIdx hc)
    exact ⟨_, rfl⟩
  rw [Entry.schema, htable, if_neg Bool.false_ne_true, hcolumns, fieldsFrom_ofMember]
  refine Schema.ofFields_eq_ok.mpr ⟨?_, rfl⟩
  rw [map_name_fullNames htypes]
  show ((numbered 1 (cs.map fieldOfMember)).map Field.name).Nodup
  rw [map_name_numbered, List.map_map]
  exact hnames

/-- A table is what has a name other than null. -/
theorem Entry.isNamespace_ofTable {t : StoredTable} :
    (Entry.ofTable t).isNamespace = false ↔ t.tablename ≠ .null := by
  show (Entry.ofTable t).isNamespace = false ↔ (Entry.ofTable t).table ≠ .null
  rw [Entry.isNamespace]
  cases (Entry.ofTable t).table <;> simp

/-! ## Tables that were read -/

/-- The type of the fields that show members of a kind. -/
def JsonKind.shown : JsonKind → FieldType
  | .string => .string
  | .number => .double
  | .integer => .long
  | .boolean => .boolean

theorem JsonKind.field_column (k : JsonKind) : k.column.field = k.shown := by cases k <;> rfl

/-- No member is shown by a narrow integer. -/
theorem JsonKind.shown_ne_int (k : JsonKind) : k.shown ≠ .int := by cases k <;> exact FieldType.noConfusion

namespace Document

/-- The member has this name, and its description this kind. -/
def IsMember (m : Points × Json.Tree) (c : Points × JsonKind) : Prop := m.1 = c.1 ∧ Types m.2 c.2

/-- An optional field that shows a member: with its number, its name, and the type of the kind that it
describes. -/
structure ShowsMember (m : (Points × Json.Tree) × Nat) (f : Field Points FieldType) : Prop where
  id : f.id = m.2
  name : f.name = m.1.1
  optional : f.required = false
  type : ∃ kind, Types m.1.2 kind ∧ f.type = kind.shown

theorem exists_members_of_isColumn {ms : List (Points × Json.Tree)} {cs : List Column}
    (h : List.Forall₂ IsColumn ms cs) :
    ∃ ks : List (Points × JsonKind), cs = ks.map Column.ofMember ∧ List.Forall₂ IsMember ms ks := by
  induction h with
  | nil => exact ⟨[], rfl, .nil⟩
  | @cons m _ _ _ hc _ ih =>
    obtain ⟨kind, hkind, rfl⟩ := hc
    obtain ⟨ks, rfl, hmembers⟩ := ih
    exact ⟨(m.1, kind) :: ks, rfl, .cons ⟨rfl, hkind⟩ hmembers⟩

theorem map_fst_of_isMember {ms : List (Points × Json.Tree)} {ks : List (Points × JsonKind)}
    (h : List.Forall₂ IsMember ms ks) : ks.map Prod.fst = ms.map Prod.fst := by
  induction h with
  | nil => rfl
  | cons hm _ ih => rw [List.map_cons, List.map_cons, ih, hm.1]

/-- The numbered fields of members show them. -/
theorem showsMember_numbered {ms : List (Points × Json.Tree)} {ks : List (Points × JsonKind)}
    (h : List.Forall₂ IsMember ms ks) (n : Nat) :
    List.Forall₂ ShowsMember (ms.zipIdx n) (numbered n (ks.map fieldOfMember)) := by
  induction h generalizing n with
  | nil => exact .nil
  | @cons m c _ _ hm _ ih =>
    obtain ⟨hname, htypes⟩ := hm
    exact .cons ⟨rfl, hname.symm, rfl, c.2, htypes, c.2.field_column⟩ (ih (n + 1))

/-- The columns of a document are those of its members, which have different names. -/
theorem exists_members_of_decode [Json.Nesting] {d : Value} {t : StoredTable} (h : decode d = .ok t) :
    ∃ root properties, ∃ ks : List (Points × JsonKind), HasRoot d root ∧
      Json.Tree.under columnsKey root = some (.object properties) ∧ List.Forall₂ IsMember (latest properties) ks ∧
      t.columns = ks.map Column.ofMember ∧ (ks.map Prod.fst).Nodup := by
  cases describes_of_decode h with
  | @mk root metadata properties database tablename columns hroot _ hproperties _ _ hcolumns =>
    obtain ⟨ks, hks, hmembers⟩ := exists_members_of_isColumn hcolumns
    exact ⟨root, properties, ks, hroot, hproperties, hmembers, hks,
      map_fst_of_isMember hmembers ▸ nodup_latest properties⟩

end Document

namespace Entry

open Document (HasRoot columnsKey ShowsMember decode)

/-- Every table that was read has a schema. -/
theorem exists_schema [Json.Nesting] {d : Value} {t : StoredTable} (h : decode d = .ok t)
    (htable : (ofTable t).isNamespace = false) : ∃ s, (ofTable t).schema = .ok s := by
  obtain ⟨-, -, ks, -, -, -, hcolumns, hnames⟩ := Document.exists_members_of_decode h
  exact ⟨_, schema_ofMember htable hcolumns hnames⟩

/-- **The schema of a table that was read.**  Every document that is read as a table with a name has one.  Its
fields show the members under `properties` one by one, numbered from one: of members with one name, however it
is spelled in the text, there is one field, at the place of the first and with the type of the last.  So no two
fields have one name; and no field is a narrow integer. -/
theorem schema_of_decode [Json.Nesting] {d : Value} {t : StoredTable} (h : decode d = .ok t)
    (hnamed : t.tablename ≠ .null) :
    ∃ root properties fields, HasRoot d root ∧ Json.Tree.under columnsKey root = some (.object properties) ∧
      (ofTable t).schema = .ok ⟨fields⟩ ∧ List.Forall₂ ShowsMember ((latest properties).zipIdx 1) fields ∧
      (fields.map Field.name).Nodup ∧ ∀ f ∈ fields, f.type ≠ .int := by
  obtain ⟨root, properties, ks, hroot, hproperties, hmembers, hcolumns, hnames⟩ :=
    Document.exists_members_of_decode h
  refine ⟨root, properties, numbered 1 (ks.map fieldOfMember), hroot, hproperties,
    schema_ofMember (isNamespace_ofTable.mpr hnamed) hcolumns hnames,
      Document.showsMember_numbered hmembers 1, ?_, ?_⟩
  · rw [map_name_numbered, List.map_map]
    exact hnames
  · intro f hf
    obtain ⟨⟨c, n⟩, hc, rfl⟩ := List.mem_map.mp hf
    obtain ⟨m, -, rfl⟩ := List.mem_map.mp (List.fst_mem_of_mem_zipIdx hc)
    show m.2.column.field ≠ .int
    rw [m.2.field_column]
    exact m.2.shown_ne_int

section

open Json.Usual

/-- Two members have one name, once plain and once escaped; they are one field with the type of the second.  The
first half of a character, the last second half and the mark that shows them both are three names. -/
theorem schema_of_decode_escaped :
    ∃ (d : Value) (t : StoredTable), decode d = .ok t ∧ t.tablename ≠ .null ∧
      ∃ fields, (ofTable t).schema = .ok ⟨fields⟩ ∧ (fields.map Field.name).Nodup ∧
        fields.map Field.name = [("a" : Points), [.half 0], [.half 2047], [.char '\uFFFD']] := by
  let members := "\"a\":\x7b\"type\":\"Integer\"\x7d,\"\\ud800\":\x7b\"type\":\"number\"\x7d," ++
    "\"\\u0061\":\x7b\"type\":\"string\"\x7d,\"\\udfff\":\x7b\"type\":\"string\"\x7d," ++
    "\"\\ufffd\":\x7b\"type\":\"boolean\"\x7d"
  let comment := "\x7b\\\"database\\\":\\\"sales\\\",\\\"tablename\\\":\\\"orders\\\"\x7d"
  let d : Value := .text ("\x7b\"properties\":\x7b" ++ members ++ "\x7d,\"$comment\":\"" ++ comment ++ "\"\x7d")
  have hread : ((decode d).toOption.map fun t =>
      ((ofTable t).isNamespace, (ofTable t).schema.toOption.map fun s => s.fields.map Field.name)) =
        some (false, some [("a" : Points), [.half 0], [.half 2047], [.char '\uFFFD']]) := by decide +kernel
  obtain ⟨t, ht, heq⟩ := Option.map_eq_some_iff.mp hread
  obtain ⟨htable, hnames⟩ := Prod.mk.inj heq
  have h : decode d = .ok t := by
    generalize decode d = x at ht
    cases x <;> cases ht
    rfl
  have hnamed := isNamespace_ofTable.mp htable
  obtain ⟨-, -, fields, -, -, hschema, -, hnodup, -⟩ := schema_of_decode h hnamed
  rw [hschema] at hnames
  exact ⟨d, t, h, hnamed, fields, hschema, hnodup, Option.some.inj hnames⟩

end

end Entry

end SchemaCatalog
