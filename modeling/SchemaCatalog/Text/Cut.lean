/-
  Cutting a text at a mark.

  `before` is the text up to the first mark (all of it if there is none), `after?` the text behind it, and
  `afterLast` the text behind the last one.  `pieces` cuts at every mark: it never gives the empty list,
  and `glued`, which puts a mark between each two pieces, gives the text back.  Names of namespaces and
  tables are cut at their dots.
-/

namespace SchemaCatalog.Text

/-! ## At one mark -/

/-- The text before the first mark. -/
def before (mark : Char) (s : List Char) : List Char := s.takeWhile (· != mark)

/-- The text behind the first mark, if there is one. -/
def after? (mark : Char) : List Char → Option (List Char)
  | [] => none
  | c :: rest => if c = mark then some rest else after? mark rest

/-- The text behind the last mark; all of it if there is none. -/
def afterLast (mark : Char) : List Char → List Char
  | [] => []
  | c :: rest => if rest.contains mark then afterLast mark rest else if c = mark then rest else c :: rest

/-- The text before the last mark, if there is one. -/
def beforeLast? (mark : Char) (s : List Char) : Option (List Char) :=
  if s.contains mark then some (s.take (s.length - (afterLast mark s).length - 1)) else none

/-! ## At every mark -/

/-- The pieces between the marks. -/
def pieces (mark : Char) : List Char → List (List Char)
  | [] => [[]]
  | c :: rest =>
    if c = mark then [] :: pieces mark rest
    else match pieces mark rest with
      | [] => [[c]]
      | p :: ps => (c :: p) :: ps

/-- The pieces with a mark between each two. -/
def glued {α : Type} (mark : α) : List (List α) → List α
  | [] => []
  | [p] => p
  | p :: q :: ps => p ++ mark :: glued mark (q :: ps)

theorem pieces_ne_nil (mark : Char) (s : List Char) : pieces mark s ≠ [] := by
  cases s with
  | nil => simp [pieces]
  | cons c r => simp only [pieces]; split <;> (try split) <;> simp

/-- Gluing the pieces gives the text back. -/
theorem glued_pieces (mark : Char) (s : List Char) : glued mark (pieces mark s) = s := by
  induction s with
  | nil => rfl
  | cons c r ih =>
    simp only [pieces]
    cases hp : pieces mark r with
    | nil => exact absurd hp (pieces_ne_nil mark r)
    | cons p ps =>
      rw [hp] at ih
      split
      · rename_i h
        simp [glued, ih, h]
      · cases ps with
        | nil => simpa [glued] using ih
        | cons q qs => simpa [glued] using ih

/-! ## Dotted names -/

/-- The parts of a name between its dots. -/
def splitDots (s : String) : List String := (pieces '.' s.toList).map String.ofList

/-- The name whose parts these are. -/
def joinDots (parts : List String) : String := String.ofList (glued '.' (parts.map String.toList))

/-- Joining the parts of a name gives the name back. -/
theorem joinDots_splitDots (s : String) : joinDots (splitDots s) = s := by
  have h : String.toList ∘ String.ofList = id := by funext l; simp
  simp [joinDots, splitDots, h, glued_pieces]

end SchemaCatalog.Text
