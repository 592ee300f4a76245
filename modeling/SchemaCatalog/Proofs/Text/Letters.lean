/-
  The texts whose small form, or whose capital form, is a name in ASCII.

  Letter case goes over all of Unicode, so a text can turn into a name in ASCII without being one.  How it can is
  read off the tables, one character at a time.

    - Small letters: of the characters outside of ASCII only the Kelvin sign comes inside without leaving anything
      outside; it becomes `k`.  The dotted `İ` becomes an `i`, but the dot stays behind.
    - Capitals: the dotless `ı` becomes `I`, the long `ſ` becomes `S`, and some letters become several, as `ß` and
      the ligatures; of these, all that come inside ASCII as a whole bring in an `S` or an `F`.

  So a name without `k` is the small form of those texts only that are the name up to the case of letters of
  ASCII (`lower_eq_iff`).  A name without `S` and `F` is the capital form of such texts, too, and besides of
  those that have `ı` in the place of an `i` (`upper_eq_iff`).
-/
import SchemaCatalog.Proofs.Text.Case
import Mathlib.Data.List.Basic

namespace SchemaCatalog.Text

/-- Whether a text is one of ASCII without certain letters. -/
def asciiWithout (letters : List Char) (s : String) : Bool :=
  s.toList.all fun c => decide (c.toNat < 0x80) && !letters.contains c

theorem asciiWithout_iff {letters : List Char} {s : String} :
    asciiWithout letters s = true ↔ ∀ c ∈ s.toList, c.toNat < 0x80 ∧ c ∉ letters := by
  simp only [asciiWithout, List.all_eq_true, Bool.and_eq_true, decide_eq_true_eq, Bool.not_eq_true',
    List.contains_eq_mem, decide_eq_false_iff_not]

/-! ## Small letters -/

/-- What a run of small letters has to do: it leads into ASCII only to `k`. -/
theorem Shift.apply_of_mem_smallShifts : ∀ s ∈ smallShifts, 0x80 ≤ s.apply s.first ∨
    s.apply s.first = 'k'.toNat ∧ s.apply s.last = 'k'.toNat := by decide +kernel

/-- The small form of a character outside of ASCII has one outside of ASCII, or it is `k`. -/
theorem exists_mem_smallOf {c : Char} (h : 0x80 ≤ c.toNat) : ∃ d ∈ smallOf c, 0x80 ≤ d.toNat ∨ d = 'k' := by
  rw [smallOf, if_neg (by omega)]
  split
  · exact ⟨'\u0307', List.mem_cons_of_mem _ List.mem_cons_self, .inl (by decide)⟩
  · refine ⟨_, List.mem_cons_self, ?_⟩
    rcases shifted_cases smallShifts c.toNat with hstays | ⟨s, hs, hn, hmoved⟩
    · left
      rwa [hstays, Char.ofNat_toNat]
    · have hbounds := Shift.apply_bounds hn
      rw [hmoved]
      rcases Shift.apply_of_mem_smallShifts s hs with houtside | ⟨hfirst, hlast⟩
      · left
        rw [toNat_moved hs hn]
        omega
      · right
        have hk : s.apply c.toNat = 'k'.toNat := by omega
        rw [hk, Char.ofNat_toNat]

theorem toNat_toLower_lt {c : Char} : c.toLower.toNat < 0x80 ↔ c.toNat < 0x80 := by
  cases h : c.isUpper with
  | true =>
    have hcapital := isUpper_iff.mp h
    have hsmall := isLower_iff.mp (isLower_toLower h)
    omega
  | false => rw [toLower_of_not_isUpper h]

/-- In a text of ASCII only letters of ASCII are made small. -/
theorem smallAfter_of_ascii {s : List Char} (h : ∀ c ∈ s, c.toNat < 0x80) (before : List Char) :
    smallAfter before s = s.map Char.toLower := by
  induction s generalizing before with
  | nil => rfl
  | cons c s ih =>
    obtain ⟨hc, hs⟩ := List.forall_mem_cons.mp h
    have hsigma : c ≠ 'Σ' := by
      rintro rfl
      exact absurd hc (by decide)
    rw [smallAfter, if_neg hsigma, smallOf, if_pos hc, ih hs]
    rfl

/-- What becomes small in ASCII, but for `k`, is of ASCII. -/
theorem ascii_of_smallAfter {before s : List Char} (h : ∀ d ∈ smallAfter before s, d.toNat < 0x80 ∧ d ≠ 'k') :
    ∀ c ∈ s, c.toNat < 0x80 := by
  induction s generalizing before with
  | nil => exact fun c hc => absurd hc List.not_mem_nil
  | cons c s ih =>
    rw [smallAfter, List.forall_mem_append] at h
    refine List.forall_mem_cons.mpr ⟨?_, ih h.2⟩
    have hfirst := h.1
    split at hfirst
    · -- both small sigmas are outside of ASCII
      have hsigma := (hfirst _ List.mem_cons_self).1
      rw [smallSigma] at hsigma
      split at hsigma <;> exact absurd hsigma (by decide)
    · refine Nat.lt_of_not_le fun houtside => ?_
      obtain ⟨d, hd, hne⟩ := exists_mem_smallOf houtside
      obtain ⟨hascii, hk⟩ := hfirst d hd
      rcases hne with hne | hne
      · omega
      · exact hk hne

/-- A name of ASCII without `k` is the small form of a text exactly if the text is the name up to the case of
letters of ASCII. -/
theorem lower_eq_iff {s t : String} (ht : asciiWithout ['k'] t = true) : lower s = t ↔ s.toLower = t := by
  have ht := asciiWithout_iff.mp ht
  have heq : (∀ c ∈ s.toList, c.toNat < 0x80) → lower s = s.toLower := by
    intro hs
    rw [lower, smallAfter_of_ascii hs, ← String.toList_map, String.ofList_toList]
    rfl
  constructor
  · rintro rfl
    refine (heq (@ascii_of_smallAfter [] _ fun d hd => ?_)).symm
    rw [lower, String.toList_ofList] at ht
    exact ⟨(ht d hd).1, fun hk => (ht d hd).2 (List.mem_singleton.mpr hk)⟩
  · rintro rfl
    refine heq fun c hc => toNat_toLower_lt.mp (ht _ ?_).1
    show c.toLower ∈ (s.map Char.toLower).toList
    rw [String.toList_map]
    exact List.mem_map_of_mem hc

/-! ## Capitals -/

/-- The text with every `ı` read as an `i`. -/
def dotted (s : String) : String := s.map fun c => if c = 'ı' then 'i' else c

/-- What a run of capitals has to do: it leads to characters outside of ASCII, to `S`, or from `ı`. -/
theorem Shift.apply_of_mem_capitalShifts : ∀ s ∈ capitalShifts,
    0x80 ≤ s.apply s.first ∧ (s.apply s.last < 0xD800 ∨ 0xDFFF < s.apply s.first ∧ s.apply s.last < 0x110000) ∨
      s.apply s.first = 'S'.toNat ∧ s.apply s.last = 'S'.toNat ∨
      s.first = 'ı'.toNat ∧ s.last = 'ı'.toNat := by decide +kernel

/-- Of several capitals for one character, one is outside of ASCII, or it is `S` or `F`. -/
theorem exists_mem_of_mem_capitalExpansions : ∀ e ∈ capitalExpansions,
    ∃ n ∈ e.2, 0x80 ≤ (Char.ofNat n).toNat ∨ Char.ofNat n = 'S' ∨ Char.ofNat n = 'F' := by decide +kernel

/-- The capital form of a character outside of ASCII has one outside of ASCII, an `S` or an `F`, unless the
character is `ı`. -/
theorem exists_mem_capitalOf {c : Char} (h : 0x80 ≤ c.toNat) (hi : c ≠ 'ı') :
    ∃ d ∈ capitalOf c, 0x80 ≤ d.toNat ∨ d = 'S' ∨ d = 'F' := by
  rw [capitalOf, if_neg (by omega)]
  cases hlookup : capitalExpansions.lookup c.toNat with
  | some ns =>
    obtain ⟨l, l', hsplit, -⟩ := List.lookup_eq_some_iff.mp hlookup
    have hmem : (c.toNat, ns) ∈ capitalExpansions := by
      rw [hsplit]
      exact List.mem_append_right l List.mem_cons_self
    obtain ⟨n, hn, hforeign⟩ := exists_mem_of_mem_capitalExpansions _ hmem
    exact ⟨Char.ofNat n, List.mem_map_of_mem hn, hforeign⟩
  | none =>
    refine ⟨_, List.mem_cons_self, ?_⟩
    rcases shifted_cases capitalShifts c.toNat with hstays | ⟨s, hs, hn, hmoved⟩
    · left
      rwa [hstays, Char.ofNat_toNat]
    · have hbounds := Shift.apply_bounds hn
      rw [hmoved]
      rcases Shift.apply_of_mem_capitalShifts s hs with ⟨houtside, hvalid⟩ | ⟨hfirst, hlast⟩ | ⟨hfirst, hlast⟩
      · left
        rw [toNat_ofNat (by omega)]
        omega
      · right
        left
        have hS : s.apply c.toNat = 'S'.toNat := by omega
        rw [hS, Char.ofNat_toNat]
      · -- the run from `ı` covers nothing else
        obtain ⟨hlow, hhigh, -⟩ := Shift.covers_iff.mp hn
        have hdotless : c.toNat = 'ı'.toNat := by omega
        exact absurd (Char.toNat_inj.mp hdotless) hi

theorem toNat_toUpper_lt {c : Char} : c.toUpper.toNat < 0x80 → c.toNat < 0x80 := by
  intro h
  cases hlower : c.isLower with
  | true =>
    have hsmall := isLower_iff.mp hlower
    omega
  | false =>
    have hstays : c.toUpper = c := by
      refine dif_neg fun hc => ?_
      have hletter : c.isLower = true := Bool.and_eq_true_iff.mpr ⟨decide_eq_true hc.1, decide_eq_true hc.2⟩
      rw [hlower] at hletter
      cases hletter
    rwa [hstays] at h

/-- In a text of ASCII letters of ASCII become capitals, and `ı` becomes what `i` becomes. -/
theorem capitalOf_of_ascii {c : Char} (h : c.toNat < 0x80 ∨ c = 'ı') :
    capitalOf c = [(if c = 'ı' then 'i' else c).toUpper] := by
  rcases h with h | rfl
  · have hi : c ≠ 'ı' := by
      rintro rfl
      exact absurd h (by decide)
    rw [capitalOf, if_pos h, if_neg hi]
  · decide +kernel

/-- A name of ASCII without `S` and `F` is the capital form of a text exactly if the text, its `ı` read as `i`,
is the name up to the case of letters of ASCII. -/
theorem upper_eq_iff {s t : String} (ht : asciiWithout ['S', 'F'] t = true) :
    upper s = t ↔ (dotted s).toUpper = t := by
  have ht := asciiWithout_iff.mp ht
  have heq : (∀ c ∈ s.toList, c.toNat < 0x80 ∨ c = 'ı') → upper s = (dotted s).toUpper := by
    intro hs
    refine String.toList_injective ?_
    rw [upper, String.toList_ofList, String.toUpper, dotted, String.toList_map, String.toList_map, List.map_map,
      List.map_eq_flatMap]
    exact List.flatMap_congr fun c hc => capitalOf_of_ascii (hs c hc)
  constructor
  · rintro rfl
    refine (heq fun c hc => ?_).symm
    by_cases hi : c = 'ı'
    · exact .inr hi
    · refine .inl (Nat.lt_of_not_le fun houtside => ?_)
      obtain ⟨d, hd, hforeign⟩ := exists_mem_capitalOf houtside hi
      rw [upper, String.toList_ofList] at ht
      obtain ⟨hascii, hne⟩ := ht d (List.mem_flatMap.mpr ⟨c, hc, hd⟩)
      rw [List.mem_cons, List.mem_singleton, not_or] at hne
      rcases hforeign with hforeign | hforeign | hforeign
      · omega
      · exact hne.1 hforeign
      · exact hne.2 hforeign
  · rintro rfl
    refine heq fun c hc => ?_
    by_cases hi : c = 'ı'
    · exact .inr hi
    · refine .inl (toNat_toUpper_lt (ht _ ?_).1)
      rw [String.toUpper, dotted, String.toList_map, String.toList_map]
      exact List.mem_map_of_mem (List.mem_map.mpr ⟨c, hc, if_neg hi⟩)

end SchemaCatalog.Text
