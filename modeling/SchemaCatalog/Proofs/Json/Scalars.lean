/-
  How words and numbers are spelled, read and written.

  1. **Spellings.**  A number is a sign, digits that do not start with a zero unless they are one, a fraction
     and an exponent; the last two may be missing.  `SpellsNumeral` puts these together and takes nothing
     apart.

  2. **Reading.**  A number has no end of its own: where it ends is decided by what stands behind it.  So it is
     read back only with a text behind it that cannot go on with it, which is true of all that can stand
     behind a value: nothing, a blank, a comma or a closing bracket.  Read in the other direction, whatever
     has been taken off the front of a text spells the number.

  3. **Writing.**  Two things could go wrong with a written integer: a leading zero would end it, and a minus
     sign also starts the word `-Infinity`.
-/
import SchemaCatalog.Json.Reader
import SchemaCatalog.Json.Writer
import Mathlib.Data.List.TakeWhile
import Mathlib.Data.List.Basic

namespace SchemaCatalog.Json

open Text (CodePoint Points)

/-! ## Spellings -/

/-- The digits before the point of a number. -/
def IsWhole (ds : List Char) : Prop :=
  ds = ['0'] ∨ ∃ c cs, ds = c :: cs ∧ c ≠ '0' ∧ ∀ d ∈ ds, d.isDigit = true

/-- The fraction of a number with its point; nothing if there are no digits. -/
def fractionText (ds : List Char) : List Char := if ds = [] then [] else '.' :: ds

/-- The spellings of an exponent. -/
inductive SpellsExponent : List Char → Option Int → Prop
  | absent : SpellsExponent [] none
  | positive {e : Char} {sign ds : List Char} (he : e = 'e' ∨ e = 'E') (hsign : sign = [] ∨ sign = ['+'])
    (hne : ds ≠ []) (hds : ∀ d ∈ ds, d.isDigit = true) :
    SpellsExponent (e :: (sign ++ ds)) (some (natOf ds : Int))
  | negative {e : Char} {ds : List Char} (he : e = 'e' ∨ e = 'E') (hne : ds ≠ [])
    (hds : ∀ d ∈ ds, d.isDigit = true) : SpellsExponent (e :: '-' :: ds) (some (-(natOf ds : Int)))

/-- The sign of a number. -/
def signText (negative : Bool) : List Char := if negative then ['-'] else []

/-- The spellings of a number. -/
structure SpellsNumeral (s : List Char) (n : Numeral) : Prop where
  whole : IsWhole n.whole
  fraction : ∀ d ∈ n.fraction, d.isDigit = true
  exponent : ∃ e, SpellsExponent e n.exponent ∧
    s = signText n.negative ++ (n.whole ++ (fractionText n.fraction ++ e))

/-- The spellings of a value without parts that is no text. -/
inductive SpellsScalar : List Char → Value → Prop
  | word {s : List Char} {v : Value} (h : (s, v) ∈ words) : SpellsScalar s v
  | number {s : List Char} {n : Numeral} {v : Value} (hs : SpellsNumeral s n) (hv : n.value = .ok v) :
    SpellsScalar s v

/-- The values that are written as words or numbers. -/
def IsScalar : Value → Prop
  | .null | .bool _ | .int _ | .float _ | .nan => True
  | _ => False

theorem SpellsScalar.isScalar {s : List Char} {v : Value} (h : SpellsScalar s v) : IsScalar v := by
  cases h with
  | word h =>
    simp only [words, List.mem_cons, Prod.mk.injEq, List.not_mem_nil, or_false] at h
    rcases h with ⟨-, rfl⟩ | ⟨-, rfl⟩ | ⟨-, rfl⟩ | ⟨-, rfl⟩ | ⟨-, rfl⟩ | ⟨-, rfl⟩ <;> trivial
  | number _ hv =>
    unfold Numeral.value at hv
    split at hv
    · split at hv
      · cases hv
      · cases hv; trivial
    · cases hv; trivial

/-! ## What stands behind a value -/

/-- The text behind a value: nothing, or a blank, a comma or a closing bracket first. -/
def EndsValue (rest : Points) : Prop :=
  ∀ c ∈ rest.head?, isBlank c = true ∨ c = ',' ∨ c = ']' ∨ c = '\x7d'

theorem endsValue_nil : EndsValue [] := by intro c h; cases h

theorem endsValue_cons {c : CodePoint} (h : isBlank c = true ∨ c = ',' ∨ c = ']' ∨ c = '\x7d') (rest : Points) :
    EndsValue (c :: rest) := by
  intro d hd
  rw [List.head?_cons, Option.mem_some_iff] at hd
  exact hd ▸ h

/-- The characters behind a scalar: those of a text that can stand there. -/
def EndsScalar (rest : List Char) : Prop := EndsValue (rest.map .char)

/-- The blanks of the grammar are these four. -/
theorem isBlank_iff {c : Char} : isBlank c = true ↔ c = ' ' ∨ c = '\t' ∨ c = '\n' ∨ c = '\r' := by
  simp [isBlank, or_assoc]

/-- The text does not go on with digits. -/
def Stops (rest : List Char) : Prop := ∀ c ∈ rest.head?, c.isDigit = false

/-- The end of a value is no digit, and neither a fraction nor an exponent starts there. -/
theorem EndsScalar.stops {rest : List Char} (h : EndsScalar rest) :
    Stops rest ∧ (∀ c ∈ rest.head?, c ≠ '.') ∧ readExponent rest = (none, rest) := by
  cases rest with
  | nil =>
    exact ⟨fun c hc => absurd hc (Option.not_mem_none c), fun c hc => absurd hc (Option.not_mem_none c), rfl⟩
  | cons c rest =>
    have hc := h (.char c) rfl
    simp only [isBlank_iff, CodePoint.char.injEq] at hc
    have hmark : c.isDigit = false ∧ c ≠ '.' ∧ c ≠ 'e' ∧ c ≠ 'E' := by
      rcases hc with (rfl | rfl | rfl | rfl) | rfl | rfl | rfl <;> decide
    have hhead : ∀ d ∈ (c :: rest).head?, d = c := fun d hd => (Option.mem_some_iff.mp hd).symm
    refine ⟨fun d hd => ?_, fun d hd => ?_, ?_⟩
    · rw [hhead d hd]; exact hmark.1
    · rw [hhead d hd]; exact hmark.2.1
    · simp [readExponent, hmark.2.2.1, hmark.2.2.2]

/-- Digits end where something else starts. -/
theorem takeWhile_digits {ds rest : List Char} (hds : ∀ d ∈ ds, d.isDigit = true) (hr : Stops rest) :
    (ds ++ rest).takeWhile Char.isDigit = ds ∧ (ds ++ rest).dropWhile Char.isDigit = rest := by
  rw [List.takeWhile_append_of_pos hds, List.dropWhile_append_of_pos hds]
  cases rest with
  | nil => simp
  | cons c rest =>
    have hc : ¬c.isDigit = true := by rw [hr c rfl]; exact Bool.false_ne_true
    rw [List.takeWhile_cons_of_neg hc, List.dropWhile_cons_of_neg hc, List.append_nil]
    exact ⟨rfl, rfl⟩

/-- What is taken off the front of a text as digits are digits. -/
theorem digits_takeWhile (s : List Char) : ∀ d ∈ s.takeWhile Char.isDigit, d.isDigit = true :=
  fun _ hd => List.mem_takeWhile_imp hd

/-! ## Reading numbers -/

theorem IsWhole.digits {ds : List Char} (h : IsWhole ds) : ∀ d ∈ ds, d.isDigit = true := by
  rcases h with rfl | ⟨c, cs, -, -, hds⟩
  · exact List.forall_mem_singleton.mpr rfl
  · exact hds

/-- A number starts with a digit behind its sign. -/
theorem IsWhole.exists_cons {ds : List Char} (h : IsWhole ds) :
    ∃ c cs, ds = c :: cs ∧ c.isDigit = true := by
  rcases h with rfl | ⟨c, cs, rfl, -, hds⟩
  · exact ⟨'0', [], rfl, by decide⟩
  · exact ⟨c, cs, rfl, hds c List.mem_cons_self⟩

/-- A whole number is read up to where its digits stop. -/
theorem readWhole_of_isWhole {ds rest : List Char} (h : IsWhole ds) (hr : Stops rest) :
    readWhole (ds ++ rest) = some (ds, rest) := by
  rcases h with rfl | ⟨c, cs, rfl, hzero, hds⟩
  · rfl
  · obtain ⟨htake, hdrop⟩ := takeWhile_digits (fun d hd => hds d (List.mem_cons_of_mem c hd)) hr
    rw [List.cons_append, readWhole, if_neg hzero, if_pos (hds c List.mem_cons_self), htake, hdrop]

/-- And what is read as one is one. -/
theorem isWhole_of_readWhole {s ds rest : List Char} (h : readWhole s = some (ds, rest)) :
    s = ds ++ rest ∧ IsWhole ds := by
  cases s with
  | nil => cases h
  | cons c s =>
    by_cases hzero : c = '0'
    · rw [readWhole, if_pos hzero] at h
      cases h
      exact ⟨rfl, .inl (by rw [hzero])⟩
    · rw [readWhole, if_neg hzero] at h
      split at h
      · rename_i hc
        cases h
        refine ⟨by rw [List.cons_append, List.takeWhile_append_dropWhile], .inr ⟨c, _, rfl, hzero, ?_⟩⟩
        exact List.forall_mem_cons.mpr ⟨hc, digits_takeWhile s⟩
      · cases h

/-- A fraction is read up to where its digits stop; no fraction is read as none. -/
theorem readFraction_of_digits {ds rest : List Char} (hds : ∀ d ∈ ds, d.isDigit = true) (hr : Stops rest)
    (hp : ∀ c ∈ rest.head?, c ≠ '.') : readFraction (fractionText ds ++ rest) = (ds, rest) := by
  obtain ⟨htake, hdrop⟩ := takeWhile_digits hds hr
  cases ds with
  | nil =>
    cases rest with
    | nil => rfl
    | cons c rest => simp [fractionText, readFraction, hp c rfl]
  | cons d ds =>
    rw [fractionText, if_neg (List.cons_ne_nil d ds), List.cons_append, readFraction, htake, hdrop]
    rfl

theorem digits_of_readFraction {s ds rest : List Char} (h : readFraction s = (ds, rest)) :
    s = fractionText ds ++ rest ∧ ∀ d ∈ ds, d.isDigit = true := by
  have hnone : ∀ s : List Char, s = fractionText [] ++ s ∧ ∀ d ∈ ([] : List Char), d.isDigit = true :=
    fun s => ⟨rfl, fun _ hd => by cases hd⟩
  cases s with
  | nil => cases h; exact hnone []
  | cons c s =>
    rw [readFraction] at h
    split at h
    · rename_i hpoint
      cases h
      rw [Bool.and_eq_true, decide_eq_true_eq, Bool.not_eq_true', List.isEmpty_eq_false_iff] at hpoint
      obtain ⟨rfl, hne⟩ := hpoint
      refine ⟨?_, digits_takeWhile s⟩
      rw [fractionText, if_neg hne, List.cons_append, List.takeWhile_append_dropWhile]
    · cases h
      exact hnone _

/-- The digits of an exponent are read up to their end; a sign in front of them makes no difference there. -/
theorem readExponent_of_spells {s rest : List Char} {e : Option Int} (h : SpellsExponent s e)
    (hr : EndsScalar rest) : readExponent (s ++ rest) = (e, rest) := by
  obtain ⟨hstops, -, hrest⟩ := hr.stops
  cases h with
  | absent => exact hrest
  | @positive c sign ds he hsign hne hds =>
    obtain ⟨htake, hdrop⟩ := takeWhile_digits hds hstops
    obtain ⟨d, ds', rfl⟩ := List.exists_cons_of_ne_nil hne
    have hd : d ≠ '-' ∧ d ≠ '+' := by
      have hdigit := hds d List.mem_cons_self
      constructor <;> (rintro rfl; cases hdigit)
    rcases hsign with rfl | rfl
    · rw [List.cons_append] at htake hdrop
      simp [readExponent, he, hd.1, hd.2, htake, hdrop]
    · rw [List.cons_append] at htake hdrop
      simp [readExponent, he, htake, hdrop]
  | @negative c ds he hne hds =>
    obtain ⟨htake, hdrop⟩ := takeWhile_digits hds hstops
    simp [readExponent, he, htake, hdrop, hne]

/-- What is read as an exponent spells it. -/
theorem spells_of_readExponent {s rest : List Char} {e : Option Int} (h : readExponent s = (e, rest)) :
    ∃ u, s = u ++ rest ∧ SpellsExponent u e := by
  cases s with
  | nil => cases h; exact ⟨[], rfl, .absent⟩
  | cons c s =>
    -- the sign first, then what follows it: digits or not
    obtain ⟨negative, sign, after, hsplit, hread, hsign⟩ : ∃ negative sign after, s = sign ++ after ∧
        readExponent (c :: s) =
          (if (c = 'e' || c = 'E') && !(after.takeWhile Char.isDigit).isEmpty then
            (some (if negative then -(natOf (after.takeWhile Char.isDigit) : Int)
              else natOf (after.takeWhile Char.isDigit)), after.dropWhile Char.isDigit)
          else (none, c :: s)) ∧
        (negative = true ∧ sign = ['-'] ∨ negative = false ∧ (sign = [] ∨ sign = ['+'])) := by
      cases s with
      | nil => exact ⟨false, [], [], rfl, rfl, .inr ⟨rfl, .inl rfl⟩⟩
      | cons d s =>
        by_cases hminus : d = '-'
        · exact ⟨true, ['-'], s, by rw [hminus]; rfl, by simp [readExponent, hminus], .inl ⟨rfl, rfl⟩⟩
        · by_cases hplus : d = '+'
          · exact ⟨false, ['+'], s, by rw [hplus]; rfl, by simp [readExponent, hplus], .inr ⟨rfl, .inr rfl⟩⟩
          · exact ⟨false, [], d :: s, rfl, by simp [readExponent, hminus, hplus], .inr ⟨rfl, .inl rfl⟩⟩
    rw [hread] at h
    split at h
    · rename_i hdigits
      cases h
      rw [Bool.and_eq_true, Bool.or_eq_true, decide_eq_true_eq, decide_eq_true_eq, Bool.not_eq_true',
        List.isEmpty_eq_false_iff] at hdigits
      obtain ⟨he, hne⟩ := hdigits
      have hafter := List.takeWhile_append_dropWhile (p := Char.isDigit) (l := after)
      refine ⟨c :: (sign ++ after.takeWhile Char.isDigit), ?_, ?_⟩
      · rw [List.cons_append, List.append_assoc, hafter, hsplit]
      · rcases hsign with ⟨rfl, rfl⟩ | ⟨rfl, hsign⟩
        · exact .negative he hne (digits_takeWhile after)
        · exact .positive he hsign hne (digits_takeWhile after)
    · cases h
      exact ⟨[], rfl, .absent⟩

/-- What follows the fraction of a number is not read as more of it. -/
theorem SpellsExponent.stops {e rest : List Char} {x : Option Int} (h : SpellsExponent e x)
    (hr : EndsScalar rest) : Stops (e ++ rest) ∧ ∀ c ∈ (e ++ rest).head?, c ≠ '.' := by
  cases h with
  | absent => exact ⟨hr.stops.1, hr.stops.2.1⟩
  | @positive c sign ds he _ _ _ | @negative c ds he _ _ =>
    have hc : c.isDigit = false ∧ c ≠ '.' := by rcases he with rfl | rfl <;> decide
    refine ⟨fun d hd => ?_, fun d hd => ?_⟩
    · obtain rfl := Option.mem_some_iff.mp hd
      exact hc.1
    · obtain rfl := Option.mem_some_iff.mp hd
      exact hc.2

/-- Neither is a fraction read as more of the digits before the point. -/
theorem stops_fractionText {s : List Char} (ds : List Char) (h : Stops s) : Stops (fractionText ds ++ s) := by
  by_cases hds : ds = []
  · rw [fractionText, if_pos hds]
    exact h
  · rw [fractionText, if_neg hds]
    intro c hc
    rw [List.cons_append, List.head?_cons, Option.mem_some_iff] at hc
    subst hc
    rfl

/-- A sign is told from the digit that stands behind it. -/
theorem readSign_signText (negative : Bool) {ds : List Char} (h : IsWhole ds) (rest : List Char) :
    readSign (signText negative ++ (ds ++ rest)) = (negative, ds ++ rest) := by
  cases negative with
  | true => rfl
  | false =>
    obtain ⟨c, cs, rfl, hc⟩ := h.exists_cons
    have hminus : c ≠ '-' := by rintro rfl; cases hc
    simp [signText, readSign, hminus]

theorem signText_readSign {s rest : List Char} {negative : Bool} (h : readSign s = (negative, rest)) :
    s = signText negative ++ rest := by
  cases s with
  | nil => cases h; rfl
  | cons c s =>
    rw [readSign] at h
    split at h
    · rename_i hc
      cases h
      rw [hc]
      rfl
    · cases h
      rfl

/-- A number is read back with an end behind it. -/
theorem readNumeral_of_spells {s rest : List Char} {n : Numeral} (h : SpellsNumeral s n)
    (hr : EndsScalar rest) : readNumeral (s ++ rest) = some (n, rest) := by
  obtain ⟨e, he, rfl⟩ := h.exponent
  obtain ⟨hstops, hpoint⟩ := he.stops hr
  have hsplit : signText n.negative ++ (n.whole ++ (fractionText n.fraction ++ e)) ++ rest =
      signText n.negative ++ (n.whole ++ (fractionText n.fraction ++ (e ++ rest))) := by
    simp only [List.append_assoc]
  rw [hsplit, readNumeral, readSign_signText n.negative h.whole]
  simp only [readWhole_of_isWhole h.whole (stops_fractionText n.fraction hstops),
    readFraction_of_digits h.fraction hstops hpoint, readExponent_of_spells he hr]

/-- What is read as a number spells it. -/
theorem spells_of_readNumeral {s rest : List Char} {n : Numeral} (h : readNumeral s = some (n, rest)) :
    ∃ u, s = u ++ rest ∧ SpellsNumeral u n := by
  rcases hsign : readSign s with ⟨negative, s₁⟩
  rw [readNumeral, hsign] at h
  dsimp only at h
  split at h
  · cases h
  rename_i whole s₂ hwhole
  rcases hfraction : readFraction s₂ with ⟨fraction, s₃⟩
  rcases hexponent : readExponent s₃ with ⟨exponent, s₄⟩
  rw [hfraction] at h
  dsimp only at h
  rw [hexponent] at h
  cases h
  obtain ⟨rfl, hw⟩ := isWhole_of_readWhole hwhole
  obtain ⟨rfl, hf⟩ := digits_of_readFraction hfraction
  obtain ⟨e, rfl, he⟩ := spells_of_readExponent hexponent
  refine ⟨signText negative ++ (whole ++ (fractionText fraction ++ e)), ?_, hw, hf, e, he, rfl⟩
  rw [signText_readSign hsign]
  simp only [List.append_assoc]

/-! ## Reading scalars -/

/-- The characters that a scalar can start with. -/
def StartsScalar (c : Char) : Prop := c.isDigit = true ∨ c ∈ ['-', 'n', 't', 'f', 'N', 'I']

theorem SpellsNumeral.exists_cons {s : List Char} {n : Numeral} (h : SpellsNumeral s n) :
    ∃ c cs, c.isDigit = true ∧ (s = c :: cs ∨ s = '-' :: c :: cs) := by
  obtain ⟨e, -, rfl⟩ := h.exponent
  obtain ⟨c, cs, hcs, hc⟩ := h.whole.exists_cons
  refine ⟨c, cs ++ (fractionText n.fraction ++ e), hc, ?_⟩
  rw [hcs, List.cons_append]
  cases n.negative with
  | true => exact .inr rfl
  | false => exact .inl rfl

theorem SpellsScalar.exists_cons {s : List Char} {v : Value} (h : SpellsScalar s v) :
    ∃ c cs, s = c :: cs ∧ StartsScalar c := by
  cases h with
  | word h =>
    simp only [words, List.mem_cons, Prod.mk.injEq, List.not_mem_nil, or_false] at h
    rcases h with ⟨rfl, -⟩ | ⟨rfl, -⟩ | ⟨rfl, -⟩ | ⟨rfl, -⟩ | ⟨rfl, -⟩ | ⟨rfl, -⟩ <;>
      exact ⟨_, _, rfl, .inr (by decide)⟩
  | number hs _ =>
    obtain ⟨c, cs, hc, rfl | rfl⟩ := hs.exists_cons
    · exact ⟨c, cs, rfl, .inl hc⟩
    · exact ⟨'-', c :: cs, rfl, .inr (by decide)⟩

/-- No word starts with a digit, and none goes on with a digit behind a minus sign. -/
theorem readWord_digit {c : Char} (h : c.isDigit = true) (rest : List Char) :
    readWord (c :: rest) = none ∧ readWord ('-' :: c :: rest) = none := by
  have hne : ∀ d : Char, d.isDigit = false → d ≠ c := fun d hd hdc => by
    rw [hdc, h] at hd; cases hd
  constructor
  · simp [readWord, words, List.isPrefixOf?, hne 'n' (by decide), hne 't' (by decide),
      hne 'f' (by decide), hne 'N' (by decide), hne 'I' (by decide), hne '-' (by decide)]
  · simp [readWord, words, List.isPrefixOf?, hne 'I' (by decide)]

/-- No word is the beginning of another. -/
theorem readWord_of_mem {s : List Char} {v : Value} (h : (s, v) ∈ words) (rest : List Char) :
    readWord (s ++ rest) = some (v, rest) := by
  simp only [words, List.mem_cons, Prod.mk.injEq, List.not_mem_nil, or_false] at h
  rcases h with ⟨rfl, rfl⟩ | ⟨rfl, rfl⟩ | ⟨rfl, rfl⟩ | ⟨rfl, rfl⟩ | ⟨rfl, rfl⟩ | ⟨rfl, rfl⟩ <;>
    simp [readWord, words, List.isPrefixOf?]

theorem mem_of_readWord {s rest : List Char} {v : Value} (h : readWord s = some (v, rest)) :
    ∃ u, s = u ++ rest ∧ (u, v) ∈ words := by
  obtain ⟨⟨w, v'⟩, hw, hread⟩ := List.exists_of_findSome?_eq_some h
  obtain ⟨rest', hprefix, heq⟩ := Option.map_eq_some_iff.mp hread
  cases heq
  exact ⟨w, (List.isPrefixOf?_eq_some_iff_append_eq.mp hprefix).symm, hw⟩

/-- A scalar is read back with an end behind it. -/
theorem readScalar_of_spells {s rest : List Char} {v : Value} (h : SpellsScalar s v)
    (hr : EndsScalar rest) : readScalar (s ++ rest) = .ok (v, rest) := by
  cases h with
  | word h => rw [readScalar, readWord_of_mem h]
  | number hs hv =>
    have hword : readWord (s ++ rest) = none := by
      obtain ⟨c, cs, hc, rfl | rfl⟩ := hs.exists_cons
      · exact (readWord_digit hc (cs ++ rest)).1
      · exact (readWord_digit hc (cs ++ rest)).2
    rw [readScalar, hword]
    simp only [readNumeral_of_spells hs hr, hv]

/-- What is read as a scalar spells it. -/
theorem spells_of_readScalar {s rest : List Char} {v : Value} (h : readScalar s = .ok (v, rest)) :
    ∃ u, s = u ++ rest ∧ SpellsScalar u v := by
  rw [readScalar] at h
  split at h
  · rename_i r hword
    cases h
    obtain ⟨u, hu, hmem⟩ := mem_of_readWord hword
    exact ⟨u, hu, .word hmem⟩
  split at h
  · cases h
  rename_i n after hnumeral
  split at h
  · rename_i hv
    cases h
    obtain ⟨u, hu, hs⟩ := spells_of_readNumeral hnumeral
    exact ⟨u, hu, .number hs hv⟩
  · cases h

/-! ## Reading in a text with halves -/

/-- Characters in front do not matter to where a text is cut. -/
theorem cutAtHalf_append (s : List Char) (rest : Points) :
    cutAtHalf (s.map .char ++ rest) = (s ++ (cutAtHalf rest).1, (cutAtHalf rest).2) := by
  induction s with
  | nil => rfl
  | cons c s ih => rw [List.map_cons, List.cons_append, cutAtHalf, ih, List.cons_append]

theorem cutAtHalf_eq (s : Points) : (cutAtHalf s).1.map .char ++ (cutAtHalf s).2 = s := by
  induction s with
  | nil => rfl
  | cons p s ih =>
    cases p with
    | char c => rw [cutAtHalf, List.map_cons, List.cons_append, ih]
    | half n => rfl

theorem EndsValue.cutAtHalf {rest : Points} (h : EndsValue rest) : EndsScalar (cutAtHalf rest).1 := by
  match rest with
  | [] => exact endsValue_nil
  | .char c :: rest => exact endsValue_cons (h _ rfl) _
  | .half n :: rest => exact endsValue_nil

/-- A scalar is read back with an end behind it. -/
theorem readScalarOf_of_spells {s : List Char} {rest : Points} {v : Value} (h : SpellsScalar s v)
    (hr : EndsValue rest) : readScalarOf (s.map .char ++ rest) = .ok (v, rest) := by
  rw [readScalarOf, cutAtHalf_append]
  simp only [readScalar_of_spells h hr.cutAtHalf, cutAtHalf_eq]

/-- What is read as a scalar spells it. -/
theorem spells_of_readScalarOf {s rest : Points} {v : Value} (h : readScalarOf s = .ok (v, rest)) :
    ∃ u : List Char, s = u.map .char ++ rest ∧ SpellsScalar u v := by
  rw [readScalarOf] at h
  split at h
  · cases h
  · rename_i v' rest' hread
    cases h
    obtain ⟨u, hu, hspells⟩ := spells_of_readScalar hread
    refine ⟨u, ?_, hspells⟩
    rw [← List.append_assoc, ← List.map_append, ← hu, cutAtHalf_eq]

/-- A text that is no scalar is not too deep. -/
theorem not_isDeep_of_readScalarOf {s : Points} {f : Fault} (h : readScalarOf s = .error f) :
    f.problem.isDeep = false := by
  rw [readScalarOf] at h
  split at h
  · rename_i p hread
    cases h
    unfold readScalar at hread
    split at hread
    · cases hread
    split at hread
    · cases hread; rfl
    split at hread <;> cases hread
    rfl
  · cases h

/-! ## Writing integers -/

theorem toDigits_isDigit {n : Nat} {c : Char} (h : c ∈ Nat.toDigits 10 n) : c.isDigit = true :=
  Nat.isDigit_of_mem_toDigits (by decide) (by decide) h

/-- Only zero is written with a leading zero. -/
theorem head?_toDigits_ne_zero {n : Nat} (h : 0 < n) : (Nat.toDigits 10 n).head? ≠ some '0' := by
  induction n using Nat.strongRecOn with
  | _ n ih =>
    by_cases hn : n < 10
    · have hall : ∀ m, m < 10 → 0 < m → Nat.digitChar m ≠ '0' := by decide
      rw [Nat.toDigits_of_lt_base hn]
      simpa using hall n hn h
    · rw [Nat.toDigits_of_base_le (by decide) (by omega), List.head?_append]
      have hlead := ih (n / 10) (by omega) (by omega)
      obtain ⟨c, ds, hcs⟩ := List.exists_cons_of_ne_nil (Nat.toDigits_ne_nil (n := n / 10) (b := 10))
      simpa [hcs] using hlead

theorem isWhole_toDigits (n : Nat) : IsWhole (Nat.toDigits 10 n) := by
  by_cases hn : n = 0
  · rw [hn, Nat.toDigits_zero]
    exact .inl rfl
  · obtain ⟨c, cs, hcs⟩ := List.exists_cons_of_ne_nil (Nat.toDigits_ne_nil (n := n) (b := 10))
    refine .inr ⟨c, cs, hcs, ?_, fun d hd => toDigits_isDigit hd⟩
    rintro rfl
    exact head?_toDigits_ne_zero (Nat.pos_of_ne_zero hn) (by rw [hcs]; rfl)

/-- The numeral that an integer is written as. -/
def numeralOf (i : Int) : Numeral := ⟨decide (i < 0), Nat.toDigits 10 i.natAbs, [], none⟩

/-- An integer is written as a numeral without fraction and exponent. -/
theorem spells_intText (i : Int) : SpellsNumeral (Decimal.intText i) (numeralOf i) := by
  refine ⟨isWhole_toDigits i.natAbs, fun d hd => absurd hd List.not_mem_nil, [], .absent, ?_⟩
  simp [Decimal.intText, numeralOf, signText, fractionText]

/-- An integer of the allowed length has its value. -/
theorem numeralOf_value (i : Int) (h : (Nat.toDigits 10 i.natAbs).length ≤ maxDigits) :
    (numeralOf i).value = .ok (.int i) := by
  simp only [numeralOf, Numeral.value, List.isEmpty_nil, Option.isNone_none, Bool.and_self, if_true,
    if_neg (Nat.not_lt.mpr h), natOf, Nat.ofDigitChars_ten_toDigits]
  by_cases hi : i < 0
  · simp only [hi, decide_true, if_true]; congr 2; omega
  · simp only [hi, decide_false, Bool.false_eq_true, if_false]; congr 2; omega

end SchemaCatalog.Json
