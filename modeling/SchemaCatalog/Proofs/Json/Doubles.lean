/-
  A written double is a scalar of the grammar.

  The words for the three doubles that are no numbers are words of the grammar.  Every other double is laid
  out around its shortest digits, in one of three ways: behind `0.`, with the point among them, or with one
  of them before the point and an exponent.  All that is used of the digits is that there are some and that
  the first is no zero.  Each of the three has a fraction or an exponent, so what is read is a double again
  and never an integer that might be too long.
-/
import SchemaCatalog.Proofs.Decimal.Shortest
import SchemaCatalog.Proofs.Json.Scalars

namespace SchemaCatalog.Json

open Decimal (trimZeros layOut exponentText)

/-! ## Digits without the zeros at their end -/

theorem prefix_trimZeros (ds : List Char) (e : Int) : (trimZeros ds e).1 <+: ds := by
  induction ds with
  | nil => exact List.prefix_rfl
  | cons c ds ih =>
    rw [trimZeros]
    split
    · split
      · exact List.nil_prefix
      · exact List.cons_prefix_cons.mpr ⟨rfl, List.nil_prefix⟩
    · rename_i hread
      rw [hread] at ih
      exact List.cons_prefix_cons.mpr ⟨rfl, ih⟩

/-- The first digit stays if it is no zero. -/
theorem trimZeros_cons {c : Char} (h : c ≠ '0') (ds : List Char) (e : Int) :
    ∃ cs, (trimZeros (c :: ds) e).1 = c :: cs := by
  rw [trimZeros]
  split
  · rw [if_neg h]
    exact ⟨[], rfl⟩
  · exact ⟨_, rfl⟩

/-! ## The layout -/

/-- Digits that start with one other than zero. -/
structure IsMantissa (ds : List Char) : Prop where
  digits : ∀ d ∈ ds, d.isDigit = true
  first : ∃ c cs, ds = c :: cs ∧ c ≠ '0'

theorem fractionText_of_ne_nil {ds : List Char} (h : ds ≠ []) : fractionText ds = '.' :: ds := if_neg h

/-- An exponent is written with its sign. -/
theorem spells_exponentText (e : Int) : ∃ x, SpellsExponent ('e' :: exponentText e) (some x) := by
  have hdigits : ∀ d ∈ Nat.toDigits 10 e.natAbs, d.isDigit = true := fun d hd => toDigits_isDigit hd
  -- a zero goes before a single digit
  obtain ⟨ds, hne, hds, htext⟩ : ∃ ds, ds ≠ [] ∧ (∀ d ∈ ds, d.isDigit = true) ∧
      exponentText e = (if e < 0 then '-' else '+') :: ds := by
    refine ⟨_, ?_, ?_, rfl⟩
    · split
      · exact List.cons_ne_nil _ _
      · exact Nat.toDigits_ne_nil
    · split
      · exact List.forall_mem_cons.mpr ⟨rfl, hdigits⟩
      · exact hdigits
  rw [htext]
  split
  · exact ⟨_, .negative (.inl rfl) hne hds⟩
  · exact ⟨_, .positive (.inl rfl) (.inr rfl) hne hds⟩

/-- A laid out number has a fraction or an exponent. -/
theorem spells_layOut {ds : List Char} (h : IsMantissa ds) (point : Int) (negative : Bool) :
    ∃ n, SpellsNumeral (signText negative ++ layOut ds point) n ∧
      (n.fraction.isEmpty && n.exponent.isNone) = false := by
  obtain ⟨c, cs, rfl, hc⟩ := h.first
  unfold layOut
  split
  · split
    · -- zeros between the point and the digits
      let zeros := List.replicate (-point).toNat '0'
      have hfraction : ∀ d ∈ zeros ++ c :: cs, d.isDigit = true := by
        refine List.forall_mem_append.mpr ⟨fun d hd => ?_, h.digits⟩
        rw [List.eq_of_mem_replicate hd]
        rfl
      have hne : zeros ++ c :: cs ≠ [] := List.append_ne_nil_of_right_ne_nil _ (List.cons_ne_nil c cs)
      refine ⟨⟨negative, ['0'], zeros ++ c :: cs, none⟩, ⟨.inl rfl, hfraction, [], .absent, ?_⟩, ?_⟩
      · simp [fractionText_of_ne_nil hne, zeros]
      · simp
    · -- the point among the digits or behind them
      obtain ⟨p, hp⟩ : ∃ p, point.toNat = p + 1 := ⟨point.toNat - 1, by omega⟩
      let whole := (c :: cs).take point.toNat
      let rest := (c :: cs).drop point.toNat
      let zeros := List.replicate (point.toNat - whole.length) '0'
      have hwhole : IsWhole (whole ++ zeros) := by
        refine .inr ⟨c, cs.take p ++ zeros, by simp [whole, hp], hc, fun d hd => ?_⟩
        rcases List.mem_append.mp hd with hd | hd
        · exact h.digits d (List.mem_of_mem_take hd)
        · rw [List.eq_of_mem_replicate hd]
          rfl
      have hrest : ∀ d ∈ (if rest.isEmpty then ['0'] else rest), d.isDigit = true := by
        split
        · exact List.forall_mem_singleton.mpr rfl
        · exact fun d hd => h.digits d (List.mem_of_mem_drop hd)
      have hne : (if rest.isEmpty then ['0'] else rest) ≠ [] := by
        split
        · exact List.cons_ne_nil _ _
        · rename_i hrest
          simpa using hrest
      refine ⟨⟨negative, whole ++ zeros, if rest.isEmpty then ['0'] else rest, none⟩,
        ⟨hwhole, hrest, [], .absent, ?_⟩, ?_⟩
      · simp only [fractionText_of_ne_nil hne, List.append_nil, List.append_assoc, whole, rest, zeros]
      · simp only [List.isEmpty_eq_false_iff.mpr hne, Bool.false_and]
  · -- one digit before the point
    obtain ⟨x, hx⟩ := spells_exponentText (point - 1)
    have hcs : ∀ d ∈ cs, d.isDigit = true := fun d hd => h.digits d (List.mem_cons_of_mem c hd)
    have hwhole : IsWhole [c] := .inr ⟨c, [], rfl, hc, fun d hd => h.digits d (by
      rw [List.mem_singleton.mp hd]
      exact List.mem_cons_self)⟩
    refine ⟨⟨negative, [c], cs, some x⟩, ⟨hwhole, hcs, _, hx, ?_⟩, ?_⟩
    · cases cs <;> simp [fractionText]
    · simp

/-! ## Doubles -/

/-- A number with a fraction or an exponent is a double. -/
theorem value_of_double {n : Numeral} (h : (n.fraction.isEmpty && n.exponent.isNone) = false) :
    ∃ x, n.value = .ok (.float x) := by
  rw [Numeral.value, h]
  exact ⟨_, rfl⟩

/-- The digits of a positive number are a mantissa, also without zeros at their end. -/
theorem isMantissa_trimZeros {n : Nat} (h : 0 < n) (e : Int) :
    IsMantissa (trimZeros (Nat.toDigits 10 n) e).1 := by
  constructor
  · exact fun d hd => toDigits_isDigit ((prefix_trimZeros _ e).subset hd)
  · obtain ⟨c, cs, hcs⟩ := List.exists_cons_of_ne_nil (Nat.toDigits_ne_nil (n := n) (b := 10))
    have hc : c ≠ '0' := by
      rintro rfl
      exact head?_toDigits_ne_zero h (by rw [hcs]; rfl)
    obtain ⟨cs', hcs'⟩ := trimZeros_cons hc cs e
    exact ⟨c, cs', hcs ▸ hcs', hc⟩

theorem spells_size {s : Decimal.Size} (hs : s.IsDouble) (negative : Bool) :
    ∃ v, SpellsScalar (signText negative ++ s.text) v := by
  have hzero : ∀ d ∈ ['0'], d.isDigit = true := List.forall_mem_singleton.mpr rfl
  obtain ⟨n, hn, hvalue⟩ : ∃ n, SpellsNumeral (signText negative ++ s.text) n ∧
      (n.fraction.isEmpty && n.exponent.isNone) = false := by
    unfold Decimal.Size.text
    split
    · exact ⟨⟨negative, ['0'], ['0'], none⟩, ⟨.inl rfl, hzero, [], .absent, rfl⟩, rfl⟩
    · rename_i hne
      exact spells_layOut (isMantissa_trimZeros (Decimal.shortest_pos hs (Nat.pos_of_ne_zero hne)) _) _ negative
  obtain ⟨x, hx⟩ := value_of_double hvalue
  exact ⟨.float x, .number hn hx⟩

/-- A written double is a scalar. -/
theorem spells_double (x : Float) : ∃ v, SpellsScalar (Decimal.text .document x) v := by
  unfold Decimal.text
  cases hx : Decimal.form x with
  | notANumber => exact ⟨.nan, .word (by simp [words, Decimal.Words.document])⟩
  | infinite negative =>
    refine ⟨.float (Decimal.infinity negative), .word ?_⟩
    cases negative <;> simp [words, Decimal.Words.document]
  | finite negative s => exact spells_size (Decimal.isDouble_of_form hx) negative

end SchemaCatalog.Json
