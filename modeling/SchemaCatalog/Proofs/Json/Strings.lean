/-
  How strings are spelled, read and written.

  1. **Spellings.**  `SpellsPieces` says without a reader what may stand between the quotes of a string: a
     code point as it is, a character behind a backslash, or a 16-bit unit by four hexadecimal digits.  The
     text of a string is what its pieces make together.

  2. **Reading.**  The reader takes exactly the spellings, up to the first quote that is not part of one.  It
     wants a character behind the four digits of a unit; in a string there always is one, the closing quote if
     no other.

  3. **Writing.**  A character is written in one of three ways: as it is (or behind a backslash), as one
     unit, or as two (`writeChar_cases`).  `piecesOf` says which, so the proof has two halves that do not touch:
     `spells_writeChar` is about the notation and `assemble_piecesOf` about joining units.  A character is no
     half, so its one unit never joins with another, and its two always do.  A torn text can be written, too,
     but two halves in it that stood apart are read as the character that they make.
-/
import SchemaCatalog.Json.Reader
import SchemaCatalog.Json.Writer

namespace SchemaCatalog.Json

open Text (CodePoint Points)

/-! ## Spellings -/

/-- What stands between the quotes of a string spells these pieces. -/
inductive SpellsPieces : Points → List Piece → Prop
  | nil : SpellsPieces [] []
  | point {c : CodePoint} {s : Points} {ps : List Piece} (hq : c ≠ '"') (hb : c ≠ '\\') (hc : isControl c = false)
    (h : SpellsPieces s ps) : SpellsPieces (c :: s) (.point c :: ps)
  | escape {e : CodePoint} {d : Char} {s : Points} {ps : List Piece} (he : shortEscape? e = some d)
    (h : SpellsPieces s ps) : SpellsPieces ('\\' :: e :: s) (.point d :: ps)
  | unit {h₁ h₂ h₃ h₄ : CodePoint} {n : Nat} {s : Points} {ps : List Piece} (hn : unit? h₁ h₂ h₃ h₄ = some n)
    (h : SpellsPieces s ps) : SpellsPieces ('\\' :: 'u' :: h₁ :: h₂ :: h₃ :: h₄ :: s) (.unit n :: ps)

/-- A string that spells a text. -/
def SpellsText (s : Points) (t : Points) : Prop :=
  ∃ inside pieces, s = .char '"' :: (inside ++ [.char '"']) ∧ SpellsPieces inside pieces ∧ t = assemble pieces

theorem SpellsPieces.append {s s' : Points} {ps ps' : List Piece} (h : SpellsPieces s ps)
    (h' : SpellsPieces s' ps') : SpellsPieces (s ++ s') (ps ++ ps') := by
  induction h with
  | nil => exact h'
  | point hq hb hc _ ih => exact .point hq hb hc ih
  | escape he _ ih => exact .escape he ih
  | unit hn _ ih => exact .unit hn ih

/-! ## Reading -/

/-- A letter that stands for a character behind a backslash is not the one that announces a unit. -/
theorem ne_u_of_shortEscape? {e : CodePoint} {d : Char} (h : shortEscape? e = some d) : e ≠ 'u' := by
  rintro rfl
  have hnone : shortEscape? 'u' = none := by decide
  rw [hnone] at h
  cases h

/-- Pieces are read up to the quote behind them. -/
theorem readPieces_of_spells (opening : Points) {s : Points} {ps : List Piece} (h : SpellsPieces s ps)
    (rest : Points) : readPieces opening (s ++ .char '"' :: rest) = .ok (ps, rest) := by
  induction h with
  | nil =>
    rw [List.nil_append, readPieces.eq_def]
    simp only [if_true]
  | point hq hb hc _ ih =>
    rw [List.cons_append, readPieces.eq_def]
    simp only [if_neg hq, if_neg hb, hc, Bool.false_eq_true, if_false, ih]
  | escape he _ ih =>
    rw [List.cons_append, List.cons_append, readPieces.eq_def]
    simp only [CodePoint.char.injEq, Char.reduceEq, if_false, if_true, if_neg (ne_u_of_shortEscape? he), he, ih]
  | @unit h₁ h₂ h₃ h₄ n s ps hn _ ih =>
    -- behind the digits there is the rest of the string or its closing quote
    obtain ⟨next, after, hnext⟩ := List.exists_cons_of_ne_nil (l := s ++ .char '"' :: rest) (by simp)
    simp only [List.cons_append]
    rw [hnext] at ih ⊢
    rw [readPieces]
    simp only [CodePoint.char.injEq, Char.reduceEq, if_false, if_true, hn, ih]

/-- What is read as pieces spells them, and ends at a quote. -/
theorem spells_of_readPieces {opening s rest : Points} {ps : List Piece}
    (h : readPieces opening s = .ok (ps, rest)) : ∃ u, s = u ++ .char '"' :: rest ∧ SpellsPieces u ps := by
  fun_induction readPieces opening s generalizing ps rest with
  | case2 after =>
    cases h
    exact ⟨[], rfl, .nil⟩
  | case6 h₁ h₂ h₃ h₄ next s n hn ps' after hread _ ih =>
    cases h
    obtain ⟨u, hu, hspells⟩ := ih hread
    exact ⟨.char '\\' :: .char 'u' :: h₁ :: h₂ :: h₃ :: h₄ :: u, by rw [hu]; rfl, .unit hn hspells⟩
  | case10 e s _ d he ps' after hread _ ih =>
    cases h
    obtain ⟨u, hu, hspells⟩ := ih hread
    exact ⟨.char '\\' :: e :: u, by rw [hu]; rfl, .escape he hspells⟩
  | case13 c s hq hb hc ps' after hread ih =>
    cases h
    obtain ⟨u, hu, hspells⟩ := ih hread
    exact ⟨c :: u, by rw [hu]; rfl, .point hq hb (Bool.not_eq_true _ ▸ hc) hspells⟩
  | case1 | case3 | case4 | case5 | case7 | case8 | case9 | case11 | case12 => cases h

/-- A string is read as the text that it spells. -/
theorem readString_of_spells {s t : Points} (h : SpellsText ('"' :: s) t) (rest : Points) :
    readString (s ++ rest) = .ok (t, rest) := by
  obtain ⟨u, ps, hs, hspells, rfl⟩ := h
  obtain rfl := List.cons.inj hs |>.2
  rw [readString, List.append_assoc, List.singleton_append, readPieces_of_spells _ hspells]

theorem spells_of_readString {s rest t : Points} (h : readString s = .ok (t, rest)) :
    ∃ u, s = u ++ rest ∧ SpellsText ('"' :: u) t := by
  unfold readString at h
  split at h
  · cases h
  · rename_i ps after hread
    cases h
    obtain ⟨u, hu, hspells⟩ := spells_of_readPieces hread
    refine ⟨u ++ [.char '"'], ?_, u, ps, rfl, hspells, rfl⟩
    rw [hu, List.append_assoc, List.singleton_append]

/-- Strings have no depth. -/
theorem not_isDeep_of_readPieces {opening s : Points} {f : Fault} (h : readPieces opening s = .error f) :
    f.problem.isDeep = false := by
  fun_induction readPieces opening s <;> cases h
  -- the faults of the rest, behind a unit, a short escape and a plain character
  case case5 ih hrest => exact ih hrest
  case case9 ih hrest => exact ih hrest
  case case12 ih hrest => exact ih hrest
  all_goals rfl

/-- No name and no text is at fault for its depth. -/
theorem not_isDeep_of_readString {s : Points} {f : Fault} (h : readString s = .error f) :
    f.problem.isDeep = false := by
  unfold readString at h
  split at h
  · rename_i hpieces
    cases h
    exact not_isDeep_of_readPieces hpieces
  · cases h

/-! ## Units by number -/

/-- The value of a digit is read back. -/
theorem hexValue?_hexDigit : ∀ n, n < 16 → hexValue? (Text.hexDigit n) = some n := by decide +kernel

/-- The four digits of a 16-bit unit. -/
theorem hexDigits_four (n : Nat) :
    Text.hexDigits 4 n =
      [Text.hexDigit (n / 4096 % 16), Text.hexDigit (n / 256 % 16), Text.hexDigit (n / 16 % 16),
        Text.hexDigit (n % 16)] := by
  simp only [Text.hexDigits, List.nil_append, List.cons_append, Nat.div_div_eq_div_mul]

theorem unit?_hexDigits {n : Nat} (h : n < 0x10000) :
    unit? (Text.hexDigit (n / 4096 % 16)) (Text.hexDigit (n / 256 % 16))
      (Text.hexDigit (n / 16 % 16)) (Text.hexDigit (n % 16)) = some n := by
  simp only [unit?, hexValue?_hexDigit _ (Nat.mod_lt _ (by decide : 0 < 16)), Option.some.injEq]
  omega

theorem spells_writeUnit {n : Nat} (h : n < 0x10000) : SpellsPieces ((writeUnit n).map .char) [.unit n] := by
  rw [writeUnit, hexDigits_four]
  exact .unit (unit?_hexDigits h) .nil

theorem unit_lt (n : Fin 2048) : CodePoint.unit n < 0x10000 := by
  rw [CodePoint.unit]
  omega

/-! ## One character -/

/-- A character's number is below or above the surrogates. -/
theorem toNat_valid (c : Char) : c.toNat < 0xD800 ∨ 0xDFFF < c.toNat ∧ c.toNat < 0x110000 := c.valid

/-- The pieces as which a character is written. -/
def piecesOf (c : Char) : List Piece :=
  if c.toNat < 0x7F ∧ (0x20 ≤ c.toNat ∨ c ∈ ['\n', '\r', '\t', '\x0c', '\x08']) then [.point c]
  else if c.toNat < 0x10000 then [.unit c.toNat]
  else [.unit (0xD800 + (c.toNat - 0x10000) / 0x400), .unit (0xDC00 + (c.toNat - 0x10000) % 0x400)]

/-- The letters that are written behind a backslash. -/
def shortLetters : List Char := ['"', '\\', 'n', 'r', 't', 'f', 'b']

/-- What is behind a backslash for one of the characters that have a letter. -/
theorem writeChar_short {c : Char} (h : c ∈ ['"', '\\', '\n', '\r', '\t', '\x0c', '\x08']) :
    ∃ e ∈ shortLetters, shortEscape? e = some c ∧ writeChar c = ['\\', e] ∧ piecesOf c = [.point c] := by
  simp only [List.mem_cons, List.not_mem_nil, or_false] at h
  rcases h with rfl | rfl | rfl | rfl | rfl | rfl | rfl
  · exact ⟨'"', by decide, by decide, by decide, rfl⟩
  · exact ⟨'\\', by decide, by decide, by decide, rfl⟩
  · exact ⟨'n', by decide, by decide, by decide, rfl⟩
  · exact ⟨'r', by decide, by decide, by decide, rfl⟩
  · exact ⟨'t', by decide, by decide, by decide, rfl⟩
  · exact ⟨'f', by decide, by decide, by decide, rfl⟩
  · exact ⟨'b', by decide, by decide, by decide, rfl⟩

/-- The ways to write a character: by a letter behind a backslash, as it is, as a unit, or as the two halves of its
number. -/
theorem writeChar_cases (c : Char) :
    (∃ e ∈ shortLetters, shortEscape? e = some c ∧ writeChar c = ['\\', e] ∧ piecesOf c = [.point c]) ∨
    ((c ≠ '"' ∧ c ≠ '\\' ∧ 0x20 ≤ c.toNat ∧ c.toNat < 0x7F) ∧ writeChar c = [c] ∧ piecesOf c = [.point c]) ∨
    (c.toNat < 0x10000 ∧ writeChar c = writeUnit c.toNat ∧ piecesOf c = [.unit c.toNat]) ∨
    (0x10000 ≤ c.toNat ∧
      writeChar c =
        writeUnit (0xD800 + (c.toNat - 0x10000) / 0x400) ++ writeUnit (0xDC00 + (c.toNat - 0x10000) % 0x400) ∧
      piecesOf c = [.unit (0xD800 + (c.toNat - 0x10000) / 0x400),
        .unit (0xDC00 + (c.toNat - 0x10000) % 0x400)]) := by
  by_cases hshort : c ∈ ['"', '\\', '\n', '\r', '\t', '\x0c', '\x08']
  · exact .inl (writeChar_short hshort)
  refine .inr ?_
  simp only [List.mem_cons, List.not_mem_nil, or_false, not_or] at hshort
  obtain ⟨hq, hb, hn, hr, ht, hf, hbs⟩ := hshort
  -- no letter stands for the character, so its number decides
  have hwrite : writeChar c = if c.toNat < 0x20 then writeUnit c.toNat else if c.toNat < 0x7F then [c]
      else if c.toNat < 0x10000 then writeUnit c.toNat
      else
        writeUnit (0xD800 + (c.toNat - 0x10000) / 0x400) ++
          writeUnit (0xDC00 + (c.toNat - 0x10000) % 0x400) := by
    rw [writeChar, if_neg hq, if_neg hb, if_neg hn, if_neg hr, if_neg ht, if_neg hf, if_neg hbs]
  have hmem : c ∉ ['\n', '\r', '\t', '\x0c', '\x08'] := by simp [hn, hr, ht, hf, hbs]
  by_cases hlow : c.toNat < 0x20
  · refine .inr (.inl ⟨by omega, by rw [hwrite, if_pos hlow], ?_⟩)
    rw [piecesOf, if_neg (by simp only [hmem, or_false]; omega), if_pos (by omega)]
  · by_cases hvisible : c.toNat < 0x7F
    · refine .inl ⟨⟨hq, hb, by omega, hvisible⟩, by rw [hwrite, if_neg hlow, if_pos hvisible], ?_⟩
      rw [piecesOf, if_pos ⟨hvisible, .inl (by omega)⟩]
    · by_cases hsmall : c.toNat < 0x10000
      · refine .inr (.inl ⟨hsmall, by rw [hwrite, if_neg hlow, if_neg hvisible, if_pos hsmall], ?_⟩)
        rw [piecesOf, if_neg (by omega), if_pos hsmall]
      · refine .inr (.inr ⟨by omega, by rw [hwrite, if_neg hlow, if_neg hvisible, if_neg hsmall], ?_⟩)
        rw [piecesOf, if_neg (by omega), if_neg hsmall]

/-- A written character spells its pieces. -/
theorem spells_writeChar (c : Char) : SpellsPieces ((writeChar c).map .char) (piecesOf c) := by
  rcases writeChar_cases c with ⟨e, -, he, hwrite, hpieces⟩ | ⟨⟨hq, hb, hlow, -⟩, hwrite, hpieces⟩ |
    ⟨hsmall, hwrite, hpieces⟩ | ⟨hlarge, hwrite, hpieces⟩
  · rw [hwrite, hpieces]
    exact .escape he .nil
  · rw [hwrite, hpieces]
    refine .point (by simpa using hq) (by simpa using hb) ?_ .nil
    simpa [isControl] using hlow
  · rw [hwrite, hpieces]
    exact spells_writeUnit hsmall
  · have hc := toNat_valid c
    rw [hwrite, hpieces, List.map_append]
    exact (spells_writeUnit (by omega)).append (spells_writeUnit (by omega))

/-! ## Joining units -/

theorem isHigh_eq_false {n : Nat} (h : n < 0xD800 ∨ 0xDFFF < n) : isHigh n = false := by
  simp only [isHigh, Bool.and_eq_false_iff, decide_eq_false_iff_not]; omega

theorem isLow_eq_false {n : Nat} (h : n < 0xD800 ∨ 0xDFFF < n) : isLow n = false := by
  simp only [isLow, Bool.and_eq_false_iff, decide_eq_false_iff_not]; omega

/-- A unit that is no surrogate stands for its own character. -/
theorem assemble_unit {c : Char} (h : c.toNat < 0x10000) (ps : List Piece) :
    assemble (.unit c.toNat :: ps) = .char c :: assemble ps := by
  have hc : c.toNat < 0xD800 ∨ 0xDFFF < c.toNat := by have := toNat_valid c; omega
  have hlone : loneUnit c.toNat = .char c := by
    simp [loneUnit, isHigh_eq_false hc, isLow_eq_false hc, Char.ofNat_toNat]
  match ps with
  | [] => simp only [assemble, hlone]
  | .point p :: ps => simp only [assemble, hlone]
  | .unit m :: ps => rw [assemble, hlone, isHigh_eq_false hc]; rfl

/-- The two halves of a character join to it. -/
theorem assemble_halves {c : Char} (h : 0x10000 ≤ c.toNat) (ps : List Piece) :
    assemble (.unit (0xD800 + (c.toNat - 0x10000) / 0x400) ::
      .unit (0xDC00 + (c.toNat - 0x10000) % 0x400) :: ps) = .char c :: assemble ps := by
  have hc := toNat_valid c
  have hhigh : isHigh (0xD800 + (c.toNat - 0x10000) / 0x400) = true := by
    simp only [isHigh, Bool.and_eq_true, decide_eq_true_eq]; omega
  have hlow : isLow (0xDC00 + (c.toNat - 0x10000) % 0x400) = true := by
    simp only [isLow, Bool.and_eq_true, decide_eq_true_eq]; omega
  have hjoin : joinHalves (0xD800 + (c.toNat - 0x10000) / 0x400)
      (0xDC00 + (c.toNat - 0x10000) % 0x400) = c := by
    have hn : 0x10000 + (0xD800 + (c.toNat - 0x10000) / 0x400 - 0xD800) * 0x400 +
        (0xDC00 + (c.toNat - 0x10000) % 0x400 - 0xDC00) = c.toNat := by omega
    rw [joinHalves, hn, Char.ofNat_toNat]
  rw [assemble, hhigh, hlow, hjoin]
  rfl

theorem assemble_piecesOf (c : Char) (ps : List Piece) :
    assemble (piecesOf c ++ ps) = .char c :: assemble ps := by
  rw [piecesOf]
  split
  · rfl
  split
  · rename_i h; exact assemble_unit h ps
  · rename_i h; exact assemble_halves (by omega) ps

/-! ## A whole string -/

/-- The pieces as which a code point is written. -/
def piecesOfPoint : CodePoint → List Piece
  | .char c => piecesOf c
  | .half n => [.unit (CodePoint.unit n)]

theorem spells_writePoint : (p : CodePoint) → SpellsPieces ((writePoint p).map .char) (piecesOfPoint p)
  | .char c => spells_writeChar c
  | .half n => spells_writeUnit (unit_lt n)

theorem spells_flatMap (s : Points) :
    SpellsPieces ((s.flatMap writePoint).map .char) (s.flatMap piecesOfPoint) := by
  induction s with
  | nil => exact .nil
  | cons p s ih =>
    rw [List.flatMap_cons, List.flatMap_cons, List.map_append]
    exact (spells_writePoint p).append ih

/-- The pieces of a whole text make this text. -/
theorem assemble_flatMap (s : List Char) :
    assemble ((s.map CodePoint.char).flatMap piecesOfPoint) = s.map .char := by
  induction s with
  | nil => rfl
  | cons c s ih =>
    rw [List.map_cons, List.flatMap_cons]
    show assemble (piecesOf c ++ _) = _
    rw [assemble_piecesOf, ih]

/-- The text as which a written text is read. -/
def readBack (s : Points) : Points := assemble (s.flatMap piecesOfPoint)

/-- A whole text is read as itself. -/
@[simp] theorem readBack_string (s : List Char) : readBack (s.map .char) = s.map .char := assemble_flatMap s

/-- A written string spells a text. -/
theorem spells_writeString (s : Points) : SpellsText ((writeString s).map .char) (readBack s) :=
  ⟨_, s.flatMap piecesOfPoint, by simp [writeString], spells_flatMap s, rfl⟩

end SchemaCatalog.Json
