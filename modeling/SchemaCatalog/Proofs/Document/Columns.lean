/-
  The columns of a document and of the table read back from it.

  A column is written under its name and read back from there, so of columns with one name the first gives
  the place and the last the type.  The type is written by its kind, in which the letter case of the
  caller is gone and the narrow integer is the same as the wide one.
-/
import SchemaCatalog.Document.Decode
import SchemaCatalog.Proofs.Value.Latest

namespace SchemaCatalog

/-- A document kind is found by a name exactly if it is that name in small letters. -/
theorem JsonKind.ofName?_eq_some {s : String} {k : JsonKind} : ofName? s = some k ↔ Text.lower s = k.name := by
  constructor
  · intro h
    have hfound := List.find?_some h
    exact beq_iff_eq.mp hfound
  · intro h
    rw [ofName?, h]
    cases k <;> decide +kernel

namespace ColumnKind

/-- A kind is found by a name exactly if it is that name in capitals. -/
theorem ofName?_eq_some {s : String} {k : ColumnKind} : ofName? s = some k ↔ Text.upper s = k.name := by
  constructor
  · intro h
    have hfound := List.find?_some h
    exact beq_iff_eq.mp hfound
  · intro h
    rw [ofName?, h]
    cases k <;> decide +kernel

/-- What a type is called once it is stored: in capitals, the narrow integer as the wide one. -/
def storedName (s : String) : String := if Text.upper s = "INTEGER" then "BIGINT" else Text.upper s

theorem storedName_eq {s : String} {k : ColumnKind} (h : ofName? s = some k) :
    storedName s = k.stored.name := by
  rw [storedName, ofName?_eq_some.mp h]
  cases k <;> decide +kernel

end ColumnKind

namespace Column

/-- The type of a column once it is stored. -/
def storedType : Value → Value
  | .text s => .text (ColumnKind.storedName s)
  | v => v

/-- The columns that have texts as names, each with its type. -/
def typed (cs : List Column) : List (String × Value) :=
  cs.filterMap fun c => c.name.text?.map fun n => (n, c.type)

/-- The columns as they are stored: a repeated name at its first place with its last type. -/
def stored (cs : List Column) : List Column :=
  (latest (typed cs)).map fun c => ⟨.text c.1, storedType c.2⟩

/-- Whether a type names a kind of column. -/
def IsKnown (type : Value) : Prop := (type.text?.bind ColumnKind.ofName?).isSome

instance (type : Value) : Decidable (IsKnown type) := inferInstanceAs (Decidable (_ = true))

/-- A known type is the name of a kind, in any letter case. -/
theorem isKnown_iff {type : Value} :
    IsKnown type ↔ ∃ s k, type = .text s ∧ ColumnKind.ofName? s = some k := by
  constructor
  · intro h
    obtain ⟨k, hk⟩ := Option.isSome_iff_exists.mp h
    obtain ⟨s, hs, hname⟩ := Option.bind_eq_some_iff.mp hk
    refine ⟨s, k, ?_, hname⟩
    cases type <;> cases hs
    rfl
  · rintro ⟨s, k, rfl, hk⟩
    rw [IsKnown, Value.text?, Option.bind_some, hk]
    rfl

theorem ofValue_of_text {s : String} {k : ColumnKind} (h : ColumnKind.ofName? s = some k) :
    ColumnKind.ofValue (.text s) = .ok k := by
  simp [ColumnKind.ofValue, Value.text?, h]

/-- Only known types are accepted. -/
theorem isKnown_of_ofValue {type : Value} {k : ColumnKind} (h : ColumnKind.ofValue type = .ok k) :
    IsKnown type := by
  unfold ColumnKind.ofValue at h
  split at h
  · cases h
  · split at h
    · rename_i hfound
      rw [IsKnown, hfound]
      rfl
    · cases h

/-- The member that describes a column of a type. -/
def member (type : Value) : Value :=
  match ColumnKind.ofValue type with
  | .ok k => .object (Members.named [("type", .text k.json.name)])
  | .error _ => .null

theorem member_eq {s : String} {k : ColumnKind} (h : ColumnKind.ofName? s = some k) :
    member (.text s) = .object (Members.named [("type", .text k.json.name)]) := by
  rw [member, ofValue_of_text h]

end Column

namespace Document

open Column

/-! ## Writing -/

/-- Columns with names and known types all get a member, the last of a name its own. -/
theorem columnMembers_eq {cs : List Column} (hnames : ∀ c ∈ cs, ∃ n, c.name = .text n)
    (htypes : ∀ c ∈ cs, IsKnown c.type) (ms : Members) :
    columnMembers cs ms = .ok (ms.putAll (Members.named ((typed cs).map fun c => (c.1, member c.2)))) := by
  induction cs generalizing ms with
  | nil => rfl
  | cons c cs ih =>
    obtain ⟨name, type⟩ := c
    obtain ⟨n, rfl⟩ := hnames _ List.mem_cons_self
    obtain ⟨s, k, rfl, hk⟩ := isKnown_iff.mp (htypes _ List.mem_cons_self)
    have hcs := ih (fun c hc => hnames c (List.mem_cons_of_mem _ hc)) fun c hc =>
      htypes c (List.mem_cons_of_mem _ hc)
    have htyped : typed (⟨.text n, .text s⟩ :: cs) = (n, .text s) :: typed cs := rfl
    rw [columnMembers, htyped, List.map_cons, member_eq hk]
    simp only [ofValue_of_text hk, Members.put?, Value.isKey, if_true, hcs]
    rfl

/-- The members of the columns of a table: the latest type under each name. -/
theorem columnMembers_nil {cs : List Column} (hnames : ∀ c ∈ cs, ∃ n, c.name = .text n)
    (htypes : ∀ c ∈ cs, IsKnown c.type) :
    columnMembers cs [] = .ok (Members.named ((latest (typed cs)).map fun c => (c.1, member c.2))) := by
  rw [columnMembers_eq hnames htypes, ← latest_map, ← Members.ofList_named_latest]
  rfl

/-- Columns of which one has an unknown type have no members. -/
theorem columnMembers_error {cs : List Column} (h : ¬∀ c ∈ cs, IsKnown c.type) (ms : Members) :
    ∃ e, columnMembers cs ms = .error e := by
  induction cs generalizing ms with
  | nil => exact absurd (fun c hc => by cases hc) h
  | cons c cs ih =>
    rw [columnMembers]
    cases hkind : ColumnKind.ofValue c.type with
    | error e => exact ⟨e, rfl⟩
    | ok k =>
      have hrest : ¬∀ c ∈ cs, IsKnown c.type := fun hall => h fun d hd => by
        rcases List.mem_cons.mp hd with rfl | hd
        · exact isKnown_of_ofValue hkind
        · exact hall d hd
      simp only
      cases ms.put? c.name (.object [(.text "type", .text k.json.name)]) with
      | none => exact ⟨_, rfl⟩
      | some ms => exact ih hrest ms

/-- Columns that have members are of known types. -/
theorem isKnown_of_columnMembers {cs : List Column} {ms members : Members}
    (h : columnMembers cs ms = .ok members) : ∀ c ∈ cs, IsKnown c.type := by
  by_contra hunknown
  obtain ⟨e, he⟩ := columnMembers_error hunknown ms
  rw [he] at h
  cases h

/-! ## Reading -/

theorem readColumn_member (n : String) {type : Value} (h : IsKnown type) :
    readColumn (.text n, member type) = .ok ⟨.text n, storedType type⟩ := by
  obtain ⟨s, k, rfl, hk⟩ := isKnown_iff.mp h
  have hfound : Members.find? "type" (Members.named [("type", .text k.json.name)]) =
      some (.text k.json.name) := by
    rw [Members.find?, Members.named_cons, Members.get?_cons_text, if_pos rfl]
  rw [member_eq hk, readColumn]
  simp only [hfound, JsonKind.read, Value.text?, Option.bind_some, JsonKind.ofName?_name, storedType,
    ColumnKind.column_json, ColumnKind.storedName_eq hk]

/-- The members are read as columns of the same names, and of the kinds that were stored. -/
theorem readColumns_members {cs : List (String × Value)} (h : ∀ c ∈ cs, IsKnown c.2) :
    readColumns (Members.named (cs.map fun c => (c.1, member c.2))) =
      .ok (cs.map fun c => ⟨.text c.1, storedType c.2⟩) := by
  induction cs with
  | nil => rfl
  | cons c cs ih =>
    rw [List.map_cons, Members.named_cons, readColumns, readColumn_member c.1 (h c List.mem_cons_self)]
    simp only [ih fun d hd => h d (List.mem_cons_of_mem c hd), List.map_cons]

/-- Every latest type is the type of a column. -/
theorem isKnown_latest {cs : List Column} (h : ∀ c ∈ cs, IsKnown c.type) :
    ∀ c ∈ latest (typed cs), IsKnown c.2 := by
  rintro ⟨n, type⟩ hc
  have hmem := lastUnder_mem (mem_latest.mp hc)
  simp only [typed, List.mem_filterMap, Option.map_eq_some_iff, Prod.mk.injEq] at hmem
  obtain ⟨c, hlisted, -, -, -, rfl⟩ := hmem
  exact h c hlisted

end Document

end SchemaCatalog
