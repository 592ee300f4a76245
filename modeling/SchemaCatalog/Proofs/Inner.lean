/-
  What fails without the client.

  Failures of the system come from clients alone.  Whatever the catalog finds out by itself, the names and the
  columns of a table, its document, a look-up in a listing and the schema of an entry, is a value or fails by a
  failure of its own (`IsInner`); and the two failures by which it tells of a loss are its own, too
  (`Failure.TellsLoss.not_isSystem`).
-/
import SchemaCatalog.Proofs.Snapshot.Lookup
import SchemaCatalog.Catalog

namespace SchemaCatalog

variable {α : Type}

/-! ## Failures of the system -/

namespace Failure

/-- A failure of the system below the catalog. -/
def IsSystem (f : Failure) : Prop := f.kind.isA .system = true

/-- What tells of a loss is no failure of the system. -/
theorem TellsLoss.not_isSystem {f : Failure} (h : f.TellsLoss) : ¬f.IsSystem := by
  have hkinds : ∀ k : Kind, k.isA .registryUnreachable = true ∨ k.isA .registryNotFound = true →
      ¬k.isA .system = true := by
    intro k
    cases k <;> decide
  exact hkinds f.kind h

end Failure

/-- What is known without the client is a value, or it fails by no failure of the system. -/
def IsInner (x : Except Failure α) : Prop := ∀ f, x = .error f → ¬f.IsSystem

namespace IsInner

/-- A value is no failure. -/
theorem ok (a : α) : IsInner (.ok a) := fun _ hf => (by cases hf)

/-- A failure of the catalog's own. -/
theorem error {f : Failure} (h : ¬f.IsSystem) : IsInner (.error f : Except Failure α) := by
  rintro _ ⟨⟩
  exact h

/-- A failure of one part is the failure of the whole. -/
theorem part {β : Type} {x : Except Failure α} (hx : IsInner x) {f : Failure} (h : x = .error f) :
    IsInner (.error f : Except Failure β) := error (hx f h)

end IsInner

/-! ## What is known without the client -/

/-- The name of a table is missing where an identifier has no components. -/
theorem Identifier.isInner_tableName (i : Identifier) : IsInner i.tableName := by
  unfold tableName
  split
  · exact .ok _
  · exact .error Bool.false_ne_true

/-- An identifier with components has a table name. -/
theorem Identifier.tableName_ne_error {i : Identifier} (h : i.toParts ≠ []) (f : Failure) :
    i.tableName ≠ .error f := by
  rw [tableName, List.getLast?_eq_getLast_of_ne_nil h]
  exact fun hf => (by cases hf)

/-- A column kind is unknown by a failure of its own, be its name no text or no kind's. -/
theorem ColumnKind.isInner_ofValue (v : Value) : IsInner (ColumnKind.ofValue v) := by
  unfold ofValue
  split
  · exact .error Bool.false_ne_true
  · split
    · exact .ok _
    · exact .error Bool.false_ne_true

/-- The columns of a table schema fail with the first field whose type stands for none. -/
theorem Catalog.isInner_columnsOfFields (fs : List (Field String FieldType)) :
    IsInner (columnsOfFields fs) := by
  induction fs with
  | nil => exact .ok _
  | cons f fs ih =>
    have hkind : IsInner (ColumnKind.ofField f.type) := by
      unfold ColumnKind.ofField
      split
      · exact .ok _
      · exact .error Bool.false_ne_true
    unfold columnsOfFields
    split
    · rename_i e he
      exact hkind.part he
    · split
      · rename_i e he
        exact ih.part he
      · exact .ok _

/-- Columns that are given are taken as they are. -/
theorem Catalog.TableColumns.isInner_toColumns (columns : TableColumns) : IsInner columns.toColumns := by
  cases columns with
  | columns cs => exact .ok cs
  | schema s => exact isInner_columnsOfFields s.fields

/-- Options are refused where a key is no text. -/
theorem Options.isInner_addAll (options properties : Members) : IsInner (addAll options properties) := by
  induction properties generalizing options with
  | nil => exact .ok _
  | cons p ps ih =>
    have hadd : IsInner (add options p) := by
      unfold add
      split
      · exact .error Bool.false_ne_true
      · split <;> exact .ok _
      · exact .ok _
    unfold addAll
    split
    · rename_i e he
      exact hadd.part he
    · exact ih _

theorem FileFormat.isInner_ofValue (v : Value) : IsInner (FileFormat.ofValue v) := by
  unfold ofValue
  split
  · exact .ok _
  · exact .error Bool.false_ne_true

theorem Location.isInner_ofValue (v : Value) : IsInner (Location.ofValue v) := by
  unfold ofValue
  split
  · exact .ok _
  · exact .error Bool.false_ne_true

namespace Document

/-- Columns are refused for their kind or their name. -/
theorem isInner_columnMembers (cs : List Column) (ms : Members) : IsInner (columnMembers cs ms) := by
  induction cs generalizing ms with
  | nil => exact .ok _
  | cons c cs ih =>
    unfold columnMembers
    split
    · rename_i e he
      exact (ColumnKind.isInner_ofValue c.type).part he
    · split
      · exact ih _
      · exact .error Bool.false_ne_true

/-- What has no written form fails by one of the failures of writing. -/
theorem isInner_written [Json.Nesting] (v : Value) : IsInner (written v) := by
  unfold written
  split
  · exact .ok _
  · exact .error Bool.false_ne_true
  · exact .error Bool.false_ne_true
  · exact .error Bool.false_ne_true

/-- Writing a document never fails by a failure of the system. -/
theorem isInner_encodeTable [Json.Nesting] (t : Table) : IsInner (encodeTable t) := by
  unfold encodeTable
  split
  · rename_i e he
    exact (Options.isInner_addAll [] t.properties).part he
  split
  · rename_i e he
    exact (FileFormat.isInner_ofValue _).part he
  split
  · exact .error Bool.false_ne_true
  unfold encode
  split
  · rename_i e he
    exact (FileFormat.isInner_ofValue _).part he
  split
  · rename_i e he
    exact (Location.isInner_ofValue _).part he
  split
  · rename_i e he
    exact (isInner_columnMembers t.columns []).part he
  split
  · rename_i e he
    exact (isInner_written _).part he
  · exact isInner_written _

end Document

namespace Snapshot

/-- Listing the tables of a namespace fails only where a namespace is called by no text. -/
theorem isInner_tables (s : Snapshot) (ns : String) : IsInner (s.tables (.text ns)) := by
  rw [tables_eq]
  split
  · exact .ok _
  · exact .error Bool.false_ne_true

theorem isInner_find? (s : Snapshot) (ns name : String) : IsInner (s.find? (.text ns) (.text name)) := by
  unfold find?
  split
  · rename_i e he
    exact (s.isInner_tables ns).part he
  · rename_i es _
    obtain ⟨hfirst, -⟩ | ⟨-, e?, hfirst, -⟩ := firstNamed_cases name es
    · rw [hfirst]
      exact .error Bool.false_ne_true
    · rw [hfirst]
      exact .ok e?

end Snapshot

/-- Fields are refused as a schema for a name that two of them have. -/
theorem Schema.isInner_ofFields {ν : Type} [Text.Spelled ν] (fields : List (Field ν FieldType)) :
    IsInner (Schema.ofFields fields) := by
  have hrepeated : ∀ (ns earlier : List FullName) (f : Failure),
      repeatedName? earlier ns = some f → ¬f.IsSystem := by
    intro ns
    induction ns with
    | nil => exact fun earlier f h => (by cases h)
    | cons n ns ih =>
      intro earlier f h
      unfold repeatedName? at h
      split at h
      · cases h
        exact Bool.false_ne_true
      · exact ih _ f h
  unfold ofFields
  split
  · rename_i f hf
    exact .error (hrepeated _ _ f hf)
  · exact .ok _

/-- An entry of any listing has a schema, or it fails by no failure of the system. -/
theorem Entry.isInner_schema (e : Entry) : IsInner e.schema := by
  have hfields : ∀ (cs : List Column) (n : Nat), IsInner (fieldsFrom n cs) := by
    intro cs
    induction cs with
    | nil => exact fun n => .ok _
    | cons c cs ih =>
      intro n
      have hname : IsInner (fieldName c.name) := by
        unfold fieldName
        split
        · exact .ok _
        · split
          · exact .ok _
          · exact .error Bool.false_ne_true
      unfold fieldsFrom
      split
      · rename_i e he
        exact (ColumnKind.isInner_ofValue c.type).part he
      split
      · rename_i e he
        exact hname.part he
      split
      · rename_i e he
        exact (ih _).part he
      · exact .ok _
  unfold schema
  split
  · exact .error Bool.false_ne_true
  split
  · rename_i f hf
    exact (hfields e.columns 1).part hf
  · exact Schema.isInner_ofFields _

end SchemaCatalog
