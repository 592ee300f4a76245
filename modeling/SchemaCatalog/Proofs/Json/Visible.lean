/-
  Written JSON is visible ASCII.

  Whatever a value holds, its text has only characters from the blank to the tilde.  Strings are written so
  character by character: what is not visible has an escape, and escapes are made of visible characters
  (`visible_writeChar`).  Words and numbers need no look at how they are written: they spell something
  (`exists_spells_scalarText`), and the grammar has nothing for them but letters, digits, signs and a point.

  The induction is on the value, along the functions that write it, with one statement for all of them: if there
  is a text, it is visible.
-/
import SchemaCatalog.Proofs.Json.RoundTrip

namespace SchemaCatalog.Json

open Text (Points)

/-- A character from the blank to the tilde. -/
def IsVisible (c : Char) : Prop := 0x20 ≤ c.toNat ∧ c.toNat ≤ 0x7E

instance (c : Char) : Decidable (IsVisible c) := inferInstanceAs (Decidable (_ ∧ _))

/-- A text of such characters. -/
def AllVisible (s : List Char) : Prop := ∀ c ∈ s, IsVisible c

/-- The empty text is visible. -/
theorem allVisible_nil : AllVisible [] := fun _ hc => absurd hc List.not_mem_nil

theorem allVisible_cons {c : Char} {s : List Char} : AllVisible (c :: s) ↔ IsVisible c ∧ AllVisible s :=
  List.forall_mem_cons

theorem allVisible_append {s t : List Char} : AllVisible (s ++ t) ↔ AllVisible s ∧ AllVisible t :=
  List.forall_mem_append

/-! ## Strings -/

/-- The sixteen digits. -/
theorem visible_hexDigit : ∀ n, n < 16 → IsVisible (Text.hexDigit n) := by decide

/-- A unit is a backslash, a letter and four digits. -/
theorem visible_writeUnit (n : Nat) : AllVisible (writeUnit n) := by
  have hdigit : ∀ m, IsVisible (Text.hexDigit (m % 16)) := fun m => visible_hexDigit _ (Nat.mod_lt m (by decide))
  rw [writeUnit, hexDigits_four]
  simp only [allVisible_cons, hdigit, allVisible_nil, and_true]
  decide

/-- The letters behind the backslash of a short escape. -/
theorem visible_shortLetters : ∀ e ∈ shortLetters, IsVisible e := by
  have hall : shortLetters.all (fun e => decide (IsVisible e)) = true := by decide
  exact fun e he => of_decide_eq_true (List.all_eq_true.mp hall e he)

/-- In each of the ways to write a character. -/
theorem visible_writeChar (c : Char) : AllVisible (writeChar c) := by
  rcases writeChar_cases c with ⟨e, he, -, hwrite, -⟩ | ⟨⟨-, -, hlow, hhigh⟩, hwrite, -⟩ | ⟨-, hwrite, -⟩ |
    ⟨-, hwrite, -⟩
  · rw [hwrite]
    exact allVisible_cons.mpr ⟨by decide, allVisible_cons.mpr ⟨visible_shortLetters e he, allVisible_nil⟩⟩
  · rw [hwrite]
    exact allVisible_cons.mpr ⟨⟨hlow, by omega⟩, allVisible_nil⟩
  · rw [hwrite]
    exact visible_writeUnit _
  · rw [hwrite]
    exact allVisible_append.mpr ⟨visible_writeUnit _, visible_writeUnit _⟩

/-- A half is written by its unit. -/
theorem visible_writePoint : (p : Text.CodePoint) → AllVisible (writePoint p)
  | .char c => visible_writeChar c
  | .half _ => visible_writeUnit _

/-- A string is visible, whatever it holds. -/
theorem visible_writeString (s : Points) : AllVisible (writeString s) := by
  have hinside : AllVisible (s.flatMap writePoint) := by
    intro c hc
    obtain ⟨d, -, hd⟩ := List.mem_flatMap.mp hc
    exact visible_writePoint d c hd
  have hquote : IsVisible '"' := by decide
  rw [writeString, List.cons_append]
  exact allVisible_cons.mpr ⟨hquote, allVisible_append.mpr ⟨hinside, allVisible_cons.mpr ⟨hquote, allVisible_nil⟩⟩⟩

/-! ## Words and numbers -/

theorem visible_digits {ds : List Char} (h : ∀ d ∈ ds, d.isDigit = true) : AllVisible ds := by
  intro d hd
  obtain ⟨hlow, hhigh⟩ := Char.isDigit_iff_toNat.mp (h d hd)
  exact ⟨Nat.le_trans (by decide) hlow, Nat.le_trans hhigh (by decide)⟩

theorem SpellsExponent.visible {s : List Char} {e : Option Int} (h : SpellsExponent s e) : AllVisible s := by
  cases h with
  | absent => exact allVisible_nil
  | positive he hsign _ hds =>
    refine allVisible_cons.mpr ⟨?_, allVisible_append.mpr ⟨?_, visible_digits hds⟩⟩
    · rcases he with rfl | rfl <;> decide
    · rcases hsign with rfl | rfl
      · exact allVisible_nil
      · exact allVisible_cons.mpr ⟨by decide, allVisible_nil⟩
  | negative he _ hds =>
    refine allVisible_cons.mpr ⟨?_, allVisible_cons.mpr ⟨by decide, visible_digits hds⟩⟩
    rcases he with rfl | rfl <;> decide

/-- A number is made of digits, signs, a point and the mark of its exponent. -/
theorem SpellsNumeral.visible {s : List Char} {n : Numeral} (h : SpellsNumeral s n) : AllVisible s := by
  obtain ⟨e, he, rfl⟩ := h.exponent
  have hsign : AllVisible (signText n.negative) := by
    cases n.negative
    · exact allVisible_nil
    · exact allVisible_cons.mpr ⟨by decide, allVisible_nil⟩
  have hfraction : AllVisible (fractionText n.fraction) := by
    unfold fractionText
    split
    · exact allVisible_nil
    · exact allVisible_cons.mpr ⟨by decide, visible_digits h.fraction⟩
  exact allVisible_append.mpr ⟨hsign, allVisible_append.mpr ⟨visible_digits h.whole.digits,
    allVisible_append.mpr ⟨hfraction, he.visible⟩⟩⟩

/-- Words and numbers are visible, since nothing else spells them. -/
theorem SpellsScalar.visible {s : List Char} {v : Value} (h : SpellsScalar s v) : AllVisible s := by
  cases h with
  | word h =>
    have hletters : (words.map Prod.fst).all (fun w => w.all fun c => decide (IsVisible c)) = true := by decide
    have hword := List.all_eq_true.mp hletters s (List.mem_map.mpr ⟨_, h, rfl⟩)
    exact fun c hc => of_decide_eq_true (List.all_eq_true.mp hword c hc)
  | number hs _ => exact hs.visible

/-! ## Values -/

/-- If there is a text, it is visible. -/
def GivesVisible (x : Except Obstacle (List Char)) : Prop := ∀ s, x = .ok s → AllVisible s

theorem GivesVisible.pure {s : List Char} (h : AllVisible s) : GivesVisible (pure s) := by
  intro s' hs
  cases hs
  exact h

/-- A text made from one that is visible. -/
theorem GivesVisible.bind {x : Except Obstacle (List Char)} {f : List Char → Except Obstacle (List Char)}
    (hx : GivesVisible x) (hf : ∀ s, AllVisible s → GivesVisible (f s)) : GivesVisible (x >>= f) := by
  intro t ht
  obtain ⟨s, hs, hft⟩ := bind_eq_ok.mp ht
  exact hf s (hx s hs) t hft

/-- A text behind a character. -/
theorem GivesVisible.cons {x : Except Obstacle (List Char)} (hx : GivesVisible x) {c : Char} (hc : IsVisible c) :
    GivesVisible (return c :: (← x)) :=
  hx.bind fun _ hs => .pure (allVisible_cons.mpr ⟨hc, hs⟩)

/-- A text behind a text. -/
theorem GivesVisible.append {x y : Except Obstacle (List Char)} (hx : GivesVisible x) (hy : GivesVisible y) :
    GivesVisible (return (← x) ++ (← y)) :=
  hx.bind fun _ hs => hy.bind fun _ ht => .pure (allVisible_append.mpr ⟨hs, ht⟩)

/-- What is neither a text, a list nor an object is written as a word or a number. -/
theorem visible_scalar {room : Nat} {v : Value} (h : writeIn room v = scalarText v) :
    GivesVisible (writeIn room v) := by
  intro s hs
  rw [h] at hs
  obtain ⟨w, hw⟩ := exists_spells_scalarText hs
  exact hw.visible

/-- The name of a member is a string, whatever its key. -/
theorem visible_member {room : Nat} (k : Value) {v : Value} (h : GivesVisible (writeIn room v)) :
    GivesVisible (writeMember room (k, v)) := by
  intro s hs
  rw [writeMember] at hs
  obtain ⟨name, -, hs⟩ := bind_eq_ok.mp hs
  obtain ⟨sv, hsv, hs⟩ := bind_eq_ok.mp hs
  cases hs
  exact allVisible_append.mpr ⟨visible_writeString name, allVisible_cons.mpr ⟨by decide, h sv hsv⟩⟩

mutual

/-- Every value is written visibly, if it can be written. -/
theorem visible_writeIn (room : Nat) : (v : Value) → GivesVisible (writeIn room v)
  | .list items =>
    match room with
    | 0 => fun _ hs => (by cases hs)
    | room + 1 => (visible_writeItems room items).cons (by decide)
  | .object members =>
    match room with
    | 0 => fun _ hs => (by cases hs)
    | room + 1 => (visible_writeMembers room members).cons (by decide)
  | .text s => .pure (visible_writeString s)
  | .torn t => .pure (visible_writeString t.points)
  | .null | .bool _ | .int _ | .float _ | .nan | .bytes _ | .buffer _ => visible_scalar rfl
termination_by structural v => v

theorem visible_writeItems (room : Nat) : (xs : List Value) → GivesVisible (writeItems room xs)
  | [] => .pure (allVisible_cons.mpr ⟨by decide, allVisible_nil⟩)
  | x :: xs => (visible_writeIn room x).append (visible_writeMoreItems room xs)
termination_by structural xs => xs

theorem visible_writeMoreItems (room : Nat) : (xs : List Value) → GivesVisible (writeMoreItems room xs)
  | [] => .pure (allVisible_cons.mpr ⟨by decide, allVisible_nil⟩)
  | x :: xs => (visible_writeIn room x).bind fun _ hs => (visible_writeMoreItems room xs).bind fun _ ht =>
    .pure (allVisible_cons.mpr ⟨by decide, allVisible_append.mpr ⟨hs, ht⟩⟩)
termination_by structural xs => xs

theorem visible_writeMembers (room : Nat) : (ms : List (Value × Value)) → GivesVisible (writeMembers room ms)
  | [] => .pure (allVisible_cons.mpr ⟨by decide, allVisible_nil⟩)
  | m :: ms => (visible_writeMember room m).append (visible_writeMoreMembers room ms)
termination_by structural ms => ms

theorem visible_writeMoreMembers (room : Nat) :
    (ms : List (Value × Value)) → GivesVisible (writeMoreMembers room ms)
  | [] => .pure (allVisible_cons.mpr ⟨by decide, allVisible_nil⟩)
  | m :: ms => (visible_writeMember room m).bind fun _ hs => (visible_writeMoreMembers room ms).bind fun _ ht =>
    .pure (allVisible_cons.mpr ⟨by decide, allVisible_append.mpr ⟨hs, ht⟩⟩)
termination_by structural ms => ms

theorem visible_writeMember (room : Nat) : (m : Value × Value) → GivesVisible (writeMember room m)
  | (k, v) => visible_member k (visible_writeIn room v)
termination_by structural m => m

end

end SchemaCatalog.Json
