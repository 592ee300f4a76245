/-
  Looking up tables in a listing.

  Names are compared in small letters, which only texts and bytes have.  A look-up goes through all tables, of
  whatever namespace, and fails if the namespace of any of them has no small letters.  Of the tables in the
  namespace it takes the first that has the name, and fails if it comes to one before whose name has no small
  letters.  In a listing of a registry the names come from documents, and these hold no bytes; so a name has
  small letters exactly if it is a text.
-/
import SchemaCatalog.Proofs.Snapshot.Listing
import SchemaCatalog.Proofs.Document.Acceptance

namespace SchemaCatalog

/-! ## Names -/

namespace Value

/-- Whether a name has small letters. -/
def hasCase (v : Value) : Bool := v.lower?.isSome

/-- Whether a value is a text, whole or torn. -/
def IsText (v : Value) : Prop := v.points?.isSome = true

/-- Whether a name is this one, letter case aside. -/
def isCalled (name : String) (v : Value) : Bool := v.lower?.any fun w => w.same (.text (Text.lower name))

@[simp] theorem hasCase_text (s : String) : (text s).hasCase = true := rfl

theorem isText_text (s : String) : (text s).IsText := rfl

theorem isText_ofPoints (ps : Text.Points) : (ofPoints ps).IsText := by
  rw [IsText, points?_ofPoints]
  rfl

/-- All texts have small letters. -/
theorem IsText.hasCase {v : Value} (h : v.IsText) : v.hasCase = true := by
  cases v with
  | text s => rfl
  | torn t => rfl
  | _ => cases h

@[simp] theorem isCalled_text (s name : String) : (text s).isCalled name = Text.sameName s name := by
  simp [isCalled, lower?, Text.sameName]

end Value

/-- Of the values that a document can hold only texts have small letters. -/
theorem Json.Tree.hasCase_value {t : Json.Tree} : t.value.hasCase = true ↔ t.value.IsText := by
  refine ⟨fun h => ?_, Value.IsText.hasCase⟩
  cases t with
  | text ps => exact Json.Tree.value_text ps ▸ Value.isText_ofPoints ps
  | scalar v hv =>
    rw [Json.Tree.value] at h
    cases v with
    | text | torn | bytes | buffer => exact hv.elim
    | _ => cases h
  | list items => rw [Json.Tree.value_list] at h; cases h
  | object ms => rw [Json.Tree.value_object] at h; cases h

namespace Snapshot

theorem sameName_text (v : Value) (name : String) :
    sameName v (.text name) = if v.hasCase then .ok (v.isCalled name) else .error .lacking := by
  unfold sameName Value.hasCase Value.isCalled
  cases v.lower? <;> rfl

/-! ## Tables of a namespace -/

/-- All tables of a listing, in order. -/
def allTables (s : Snapshot) : List Entry := s.entries.filter fun e => !e.isNamespace

/-- The tables of a namespace are found if the namespaces of all tables have small letters. -/
theorem tables_eq (s : Snapshot) (ns : String) :
    s.tables (.text ns) =
      if s.allTables.all fun e => e.ns.hasCase then .ok (s.allTables.filter fun e => e.ns.isCalled ns)
      else .error .lacking := by
  obtain ⟨es⟩ := s
  show tablesIn (.text ns) es = if (es.filter fun e => !e.isNamespace).all fun e => e.ns.hasCase then
    .ok ((es.filter fun e => !e.isNamespace).filter fun e => e.ns.isCalled ns) else .error .lacking
  induction es with
  | nil => rfl
  | cons e es ih =>
    rw [tablesIn]
    cases htable : e.isNamespace with
    | true =>
      rw [List.filter_cons_of_neg (by simp [htable]), if_pos rfl]
      exact ih
    | false =>
      rw [List.filter_cons_of_pos (by simp [htable]), List.all_cons, sameName_text, if_neg Bool.false_ne_true,
        List.filter_cons, ih]
      -- the table itself, then the tables behind it
      cases e.ns.hasCase with
      | false => rfl
      | true => cases (es.filter fun e => !e.isNamespace).all fun e => e.ns.hasCase <;> rfl

/-! ## The first with a name -/

/-- Where a search ends: at a table that has the name, or no small letters in its own. -/
def endsSearch (name : String) (e : Entry) : Bool := !e.table.hasCase || e.table.isCalled name

/-- The search ends at the first table where it can. -/
theorem firstNamed_eq (name : String) (es : List Entry) :
    firstNamed (.text name) es =
      match es.find? (endsSearch name) with
      | none => .ok none
      | some e => if e.table.hasCase then .ok (some e) else .error .lacking := by
  induction es with
  | nil => rfl
  | cons e es ih =>
    rw [firstNamed, sameName_text, List.find?_cons, ih, endsSearch]
    cases hcase : e.table.hasCase with
    | false => simp only [Bool.false_eq_true, if_false, Bool.not_false, Bool.true_or, hcase]
    | true => cases hcalled : e.table.isCalled name <;> simp [hcase]

/-- A table without small letters in its name comes before any that has the name. -/
def Unnamed (name : String) (es : List Entry) : Prop :=
  ∃ before e after, es = before ++ e :: after ∧ e.table.hasCase = false ∧
    ∀ b ∈ before, b.table.hasCase = true ∧ b.table.isCalled name = false

theorem unnamed_iff {name : String} {es : List Entry} :
    Unnamed name es ↔ ∃ e, es.find? (endsSearch name) = some e ∧ e.table.hasCase = false := by
  have hpassed : ∀ b : Entry,
      (!endsSearch name b) = true ↔ b.table.hasCase = true ∧ b.table.isCalled name = false := by
    intro b
    simp [endsSearch]
  simp only [List.find?_eq_some_iff_append, hpassed]
  constructor
  · rintro ⟨before, e, after, hsplit, hcase, hbefore⟩
    exact ⟨e, ⟨by simp [endsSearch, hcase], before, after, hsplit, hbefore⟩, hcase⟩
  · rintro ⟨e, ⟨-, before, after, hsplit, hbefore⟩, hcase⟩
    exact ⟨before, e, after, hsplit, hcase, hbefore⟩

/-- The search fails at such a table only; otherwise it finds one of the tables or nothing. -/
theorem firstNamed_cases (name : String) (es : List Entry) :
    firstNamed (.text name) es = .error .lacking ∧ Unnamed name es ∨
      ¬Unnamed name es ∧ ∃ e?, firstNamed (.text name) es = .ok e? ∧ ∀ e, e? = some e → e ∈ es := by
  rw [firstNamed_eq, unnamed_iff]
  cases hfound : es.find? (endsSearch name) with
  | none =>
    refine .inr ⟨?_, none, rfl, fun e he => (by cases he)⟩
    rintro ⟨e, he, -⟩
    cases he
  | some e =>
    cases hcase : e.table.hasCase with
    | false => exact .inl ⟨by simp only [hcase, Bool.false_eq_true, if_false], e, rfl, hcase⟩
    | true =>
      refine .inr ⟨?_, some e, by simp only [hcase, if_true], ?_⟩
      · rintro ⟨e', he', hcase'⟩
        cases he'
        rw [hcase] at hcase'
        cases hcase'
      · rintro e' he'
        cases he'
        exact List.mem_of_find?_eq_some hfound

/-- Where all names have small letters, it ends at the first table that has the name. -/
theorem firstNamed_of_hasCase {es : List Entry} (h : ∀ e ∈ es, e.table.hasCase = true) (name : String) :
    firstNamed (.text name) es = .ok (es.find? fun e => e.table.isCalled name) := by
  induction es with
  | nil => rfl
  | cons e es ih =>
    obtain ⟨he, hes⟩ := List.forall_mem_cons.mp h
    rw [firstNamed, sameName_text, if_pos he, List.find?_cons, ih hes]
    cases e.table.isCalled name <;> rfl

end Snapshot

/-! ## In a registry -/

namespace Registry

variable [Json.Nesting]

/-- The tables that are listed of a registry. -/
def tables (r : Registry) : List Entry := Snapshot.allTables ⟨r.listing⟩

/-- A listed table was read from a document. -/
theorem exists_of_mem_tables {r : Registry} {e : Entry} (h : e ∈ r.tables) :
    ∃ d t, Document.decode d = .ok t ∧ e = .ofTable t := by
  obtain ⟨hlisted, htable⟩ := List.mem_filter.mp h
  rcases origin_of_mem_listing hlisted with ⟨name, rfl⟩ | hread
  · cases htable
  · exact hread

/-- Its names have small letters if and only if they are texts. -/
theorem hasCase_of_mem_tables {r : Registry} {e : Entry} (h : e ∈ r.tables) :
    (e.ns.hasCase = true ↔ e.ns.IsText) ∧ (e.table.hasCase = true ↔ e.table.IsText) := by
  obtain ⟨d, t, ht, rfl⟩ := exists_of_mem_tables h
  obtain ⟨-, -, -, -, -, -⟩ := Document.describes_of_decode ht
  exact ⟨Json.Tree.hasCase_value, Json.Tree.hasCase_value⟩

end Registry

end SchemaCatalog
