/-
  Letter case over all of Unicode.

  Names in the catalog are compared in small letters and type names are looked up in capitals, so both
  maps have to be complete: a capital can take several characters (`ß` is written `SS`), the dotted
  capital `İ` becomes two characters, and the small letter of `Σ` depends on its neighbours.

  A sigma is final, and becomes `ς`, when a cased letter stands before it and none after it; characters
  that are case-ignorable (marks, apostrophes, the dot) are passed over on both sides.  Hence lowering a
  text is not the same as lowering its parts: `ΑΣ.Β` has no final sigma, its first part `ΑΣ` has one.
-/
import SchemaCatalog.Text.CaseTable
import SchemaCatalog.Text.Points

namespace SchemaCatalog.Text

/-- The code point after the first run of the table that holds it; itself when there is none. -/
def shifted (table : List Shift) (n : Nat) : Nat :=
  match table.find? (·.covers n) with
  | some s => s.apply n
  | none => n

/-! ## One character -/

/-- The small form of a character that is no sigma. -/
def smallOf (c : Char) : List Char :=
  if c.toNat < 0x80 then [c.toLower]
  else if c = 'İ' then ['i', '\u0307']
  else [Char.ofNat (shifted smallShifts c.toNat)]

/-- The capital form of a character. -/
def capitalOf (c : Char) : List Char :=
  if c.toNat < 0x80 then [c.toUpper]
  else match capitalExpansions.lookup c.toNat with
    | some ns => ns.map Char.ofNat
    | none => [Char.ofNat (shifted capitalShifts c.toNat)]

/-- Characters passed over when a sigma looks for a letter beside it. -/
def isCaseIgnorable (c : Char) : Bool := ignorableRanges.any (·.covers c.toNat)

/-- Letters that have a case, the case-ignorable ones left out. -/
def isCased (c : Char) : Bool :=
  if c.toNat < 0x80 then c.isAlpha else casedRanges.any (·.covers c.toNat)

/-! ## A text -/

/-- Whether the first character that is not case-ignorable is a cased letter. -/
def startsCased (s : List Char) : Bool :=
  match s.dropWhile isCaseIgnorable with
  | c :: _ => isCased c
  | [] => false

/-- The small form of a sigma between what stands before it (nearest first) and what follows. -/
def smallSigma (before after : List Char) : Char :=
  if startsCased before && !startsCased after then 'ς' else 'σ'

/-- The small form of a text, given what stands before it (nearest first). -/
def smallAfter (before : List Char) : List Char → List Char
  | [] => []
  | c :: rest =>
    (if c = 'Σ' then [smallSigma before rest] else smallOf c) ++ smallAfter (c :: before) rest

/-- The text in small letters. -/
def lower (s : String) : String := String.ofList (smallAfter [] s.toList)

/-- The text in capitals. -/
def upper (s : String) : String := String.ofList (s.toList.flatMap capitalOf)

/-- Whether two names are the same up to letter case. -/
def sameName (s t : String) : Bool := lower s == lower t

@[simp] theorem sameName_self (s : String) : sameName s s = true := beq_self_eq_true (lower s)

/-! ## A torn text -/

/-- The small form of a text behind a run of characters (nearest first).  A half has no other form, and as it
is neither a letter nor ignorable, a sigma beside it finds as little there as at the end of a text. -/
def smallRuns (run : List Char) : Points → Points
  | [] => (smallAfter [] run.reverse).map .char
  | .char c :: ps => smallRuns (c :: run) ps
  | .half n :: ps => (smallAfter [] run.reverse).map .char ++ .half n :: smallRuns [] ps

/-- The small form of a text has its halves. -/
theorem any_isHalf_smallRuns (run : List Char) (ps : Points) :
    (smallRuns run ps).any CodePoint.isHalf = ps.any CodePoint.isHalf := by
  induction ps generalizing run with
  | nil => exact any_isHalf_map_char _
  | cons p ps ih =>
    cases p with
    | char c => rw [smallRuns, ih, List.any_cons, CodePoint.isHalf, Bool.false_or]
    | half n => simp [smallRuns, CodePoint.isHalf]

/-- The torn text in small letters. -/
def Torn.lower (t : Torn) : Torn := ⟨smallRuns [] t.points, (any_isHalf_smallRuns [] t.points).trans t.isTorn⟩

/-! ## Bytes -/

/-- The byte with an ASCII capital made small. -/
def lowerByte (b : UInt8) : UInt8 := if 65 ≤ b && b ≤ 90 then b + 32 else b

end SchemaCatalog.Text
