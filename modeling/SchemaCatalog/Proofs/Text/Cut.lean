/-
  What is cut off at a mark, and where it is in the text.

  A text with a mark in it is the text before the first one, the mark, and the text behind it (`eq_of_after?`);
  behind the last one there is no mark any more.  Read the other way, a mark that is put behind a text without one
  is the first of its kind (`before_glued`, `after?_glued`), whatever follows.  The first of all pieces ends at the
  first mark, and what is put in front of a text without bringing in a mark is put in front of that piece.
-/
import SchemaCatalog.Text.Cut
import Mathlib.Data.List.TakeWhile

namespace SchemaCatalog.Text

variable {mark c : Char} {s t : List Char}

/-! ## At the first mark -/

theorem mem_of_mem_before (h : c ∈ before mark s) : c ∈ s := (List.takeWhile_prefix _).subset h

/-- The mark is not in front of its first place. -/
theorem not_mem_before (mark : Char) (s : List Char) : mark ∉ before mark s := by
  intro h
  have hne := List.mem_takeWhile_imp h
  rw [bne_self_eq_false] at hne
  cases hne

theorem before_cons_mark (mark : Char) (s : List Char) : before mark (mark :: s) = [] :=
  List.takeWhile_cons_of_neg (by simp)

theorem before_cons_of_ne (h : c ≠ mark) (s : List Char) : before mark (c :: s) = c :: before mark s :=
  List.takeWhile_cons_of_pos (by simpa using h)

/-- Nothing stands behind a mark that is not there. -/
theorem after?_eq_none_iff : after? mark s = none ↔ mark ∉ s := by
  induction s with
  | nil => exact ⟨fun _ => List.not_mem_nil, fun _ => rfl⟩
  | cons d s ih =>
    rw [after?]
    by_cases h : d = mark
    · rw [if_pos h, h]
      exact ⟨fun h => (by cases h), fun h => absurd List.mem_cons_self h⟩
    · rw [if_neg h, ih, List.mem_cons, not_or]
      exact ⟨fun hs => ⟨fun hd => h hd.symm, hs⟩, fun hs => hs.2⟩

/-- A text is what stands before its first mark, the mark, and what stands behind it. -/
theorem eq_of_after? (h : after? mark s = some t) : s = before mark s ++ mark :: t := by
  induction s with
  | nil => cases h
  | cons d s ih =>
    rw [after?] at h
    split at h
    · rename_i hd
      cases h
      rw [hd, before_cons_mark]
      rfl
    · rename_i hd
      rw [before_cons_of_ne hd, List.cons_append, ← ih h]

theorem mem_of_mem_after? (h : after? mark s = some t) (hc : c ∈ t) : c ∈ s := by
  rw [eq_of_after? h]
  exact List.mem_append_right _ (List.mem_cons_of_mem mark hc)

/-- All of a text stands before a mark that is not there. -/
theorem before_of_not_mem (h : mark ∉ s) : before mark s = s := by
  refine List.takeWhile_eq_self_iff.mpr fun c hc => ?_
  rw [bne_iff_ne]
  rintro rfl
  exact h hc

/-- The first mark behind a text without one. -/
theorem before_glued (h : mark ∉ s) (t : List Char) : before mark (s ++ mark :: t) = s := by
  have hall := List.takeWhile_eq_self_iff.mp (before_of_not_mem h)
  rw [before, List.takeWhile_append_of_pos hall, List.takeWhile_cons_of_neg (by simp), List.append_nil]

/-- The first of the marks is where the two were glued. -/
theorem after?_glued (h : mark ∉ s) (t : List Char) : after? mark (s ++ mark :: t) = some t := by
  induction s with
  | nil => rw [List.nil_append, after?, if_pos rfl]
  | cons d s ih =>
    rw [List.mem_cons, not_or] at h
    rw [List.cons_append, after?, if_neg (Ne.symm h.1), ih h.2]

/-! ## At the last mark -/

/-- Behind the last mark stands the end of the text. -/
theorem afterLast_suffix (mark : Char) (s : List Char) : afterLast mark s <:+ s := by
  induction s with
  | nil => exact List.suffix_rfl
  | cons d s ih =>
    rw [afterLast]
    split
    · exact ih.trans (List.suffix_cons d s)
    · split
      · exact List.suffix_cons d s
      · exact List.suffix_rfl

theorem mem_of_mem_afterLast (h : c ∈ afterLast mark s) : c ∈ s := (afterLast_suffix mark s).subset h

/-- In front of it stands the last mark. -/
theorem exists_of_afterLast (h : mark ∈ s) : ∃ front, s = front ++ mark :: afterLast mark s := by
  induction s with
  | nil => cases h
  | cons d s ih =>
    rw [afterLast]
    by_cases hs : mark ∈ s
    · obtain ⟨front, hfront⟩ := ih hs
      rw [if_pos (by simpa using hs)]
      exact ⟨d :: front, by rw [List.cons_append, ← hfront]⟩
    · have hd : d = mark := by
        rcases List.mem_cons.mp h with h | h
        · exact h.symm
        · exact absurd h hs
      rw [if_neg (by simpa using hs), if_pos hd]
      exact ⟨[], by rw [hd, List.nil_append]⟩

/-- No mark stands behind the last. -/
theorem not_mem_afterLast (mark : Char) (s : List Char) : mark ∉ afterLast mark s := by
  induction s with
  | nil => exact List.not_mem_nil
  | cons d s ih =>
    rw [afterLast]
    split
    · exact ih
    · rename_i hs
      have hs : mark ∉ s := by simpa using hs
      split
      · exact hs
      · rename_i hd
        rw [List.mem_cons, not_or]
        exact ⟨Ne.symm hd, hs⟩

theorem afterLast_of_not_mem (h : mark ∉ s) : afterLast mark s = s := by
  cases s with
  | nil => rfl
  | cons d s =>
    rw [List.mem_cons, not_or] at h
    rw [afterLast, if_neg (by simpa using h.2), if_neg (Ne.symm h.1)]

/-! ## At every mark -/

/-- A mark starts a new piece. -/
theorem pieces_cons_mark (mark : Char) (s : List Char) : pieces mark (mark :: s) = [] :: pieces mark s := by
  rw [pieces, if_pos rfl]

/-- What is no mark belongs to the first piece. -/
theorem pieces_cons_of_ne (h : c ≠ mark) (s : List Char) :
    pieces mark (c :: s) = (pieces mark s).modifyHead (c :: ·) := by
  rw [pieces, if_neg h]
  cases hs : pieces mark s with
  | nil => exact absurd hs (pieces_ne_nil mark s)
  | cons p ps => rfl

/-- So does a text without a mark in front of another one. -/
theorem pieces_append_of_not_mem (h : mark ∉ s) (t : List Char) :
    pieces mark (s ++ t) = (pieces mark t).modifyHead (s ++ ·) := by
  induction s with
  | nil => exact (congrFun List.modifyHead_id (pieces mark t)).symm
  | cons c s ih =>
    rw [List.mem_cons, not_or] at h
    rw [List.cons_append, pieces_cons_of_ne (Ne.symm h.1), ih h.2, List.modifyHead_modifyHead]
    rfl

/-- The first piece is the text before the first mark. -/
theorem exists_pieces (mark : Char) (s : List Char) : ∃ ps, pieces mark s = before mark s :: ps := by
  induction s with
  | nil => exact ⟨[], rfl⟩
  | cons c s ih =>
    by_cases h : c = mark
    · exact ⟨pieces mark s, by rw [h, pieces_cons_mark, before_cons_mark]⟩
    · obtain ⟨ps, hps⟩ := ih
      exact ⟨ps, by rw [pieces_cons_of_ne h, hps, List.modifyHead_cons, before_cons_of_ne h]⟩

/-- Names with the same parts are the same. -/
theorem splitDots_injective : Function.Injective splitDots := Function.LeftInverse.injective joinDots_splitDots

end SchemaCatalog.Text
