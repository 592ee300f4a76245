/-
  Texts that may hold a half of a character.

  Where text is counted in units of 16 bits, a character beyond them takes two, a first half and a second one.
  A document can spell one of the two alone.  It is then a code point of the text, equal to no other, and
  no character; so what a document calls a text is a list of code points.

  Nearly all texts are whole and are strings.  A text with a half in it is torn.
-/

namespace SchemaCatalog.Text

/-- A code point of a text. -/
inductive CodePoint where
  | char (c : Char)
  /-- A half of a character, the first halves before the second ones. -/
  | half (n : Fin 2048)
deriving DecidableEq

/-- A text, whole or torn. -/
abbrev Points := List CodePoint

instance : Coe Char CodePoint := ⟨.char⟩

instance : Coe String Points := ⟨fun s => s.toList.map .char⟩

namespace CodePoint

/-- Whether it is a half. -/
def isHalf : CodePoint → Bool
  | .char _ => false
  | .half _ => true

/-- The number of the half's unit. -/
def unit (n : Fin 2048) : Nat := 0xD800 + n

/-- The character that shows it.  A half is none, so the mark of what cannot be shown stands for it. -/
def shown : CodePoint → Char
  | .char c => c
  | .half _ => '\uFFFD'

end CodePoint

/-- The string that shows a text; it is the text itself if that is whole. -/
def shown (ps : Points) : String := String.ofList (ps.map CodePoint.shown)

/-- A text with a half in it. -/
structure Torn where
  points : Points
  isTorn : points.any CodePoint.isHalf = true
deriving DecidableEq

/-- What is used as a text: strings, which are whole, and lists of code points. -/
class Spelled (ν : Type) where
  /-- The code points that it is spelled with. -/
  points : ν → Points

instance : Spelled String := ⟨fun s => s⟩

instance : Spelled Points := ⟨fun ps => ps⟩

/-! ## Whole texts -/

/-- No character is a half. -/
@[simp] theorem any_isHalf_map_char (s : List Char) : (s.map CodePoint.char).any CodePoint.isHalf = false := by
  simp [CodePoint.isHalf, Function.comp_def]

@[simp] theorem shown_map_char (s : List Char) : shown (s.map CodePoint.char) = String.ofList s := by
  have hshown : CodePoint.shown ∘ CodePoint.char = id := rfl
  rw [shown, List.map_map, hshown, List.map_id]

/-- A text without halves is the string that shows it. -/
theorem eq_map_char_of_whole {ps : Points} (h : ps.any CodePoint.isHalf = false) :
    ps = (shown ps).toList.map .char := by
  rw [shown, String.toList_ofList, List.map_map]
  induction ps with
  | nil => rfl
  | cons p ps ih =>
    rw [List.any_cons, Bool.or_eq_false_iff] at h
    cases p with
    | half n => cases h.1
    | char c => rw [List.map_cons, ← ih h.2]; rfl

end SchemaCatalog.Text
