/-
  What is small already stays as it is.

  Lowering leaves a character alone or brings in a small one (`Small`): a letter of ASCII, the dot that is left
  of `İ`, one of the two small sigmas, or what a run of the table moves a code point to.  The point of it all is
  that a small character is not moved again.  For letters and sigmas that is plain to see; for the table it is
  because no run moves a code point into another run (`Shift.misses`).  Runs that overlap so are runs of every
  second code point, as `Ā ā Ă ă …`, and what is moved from one place of such a run comes to lie between two
  places.

    - A text in small letters is its own text in small letters (`lower_lower`).
    - All that lowering brings into a text is small (`mem_lower`), so of ASCII it brings in nothing but letters.
-/
import SchemaCatalog.Text.Case

namespace SchemaCatalog.Text

/-! ## The table -/

namespace Shift

variable {s t : Shift} {n : Nat}

/-- Whether all that the run `s` moves comes to lie outside the run `t`, or between two places of it. -/
def misses (s t : Shift) : Bool :=
  (s.apply s.last).blt t.first || t.last.blt (s.apply s.first) ||
    (t.stride == 2 && (s.stride == 2 || s.first == s.last) && (s.apply s.first + t.first) % 2 == 1)

/-- Whether nothing that the run moves comes near a code point. -/
def avoids (s : Shift) (m : Nat) : Bool := decide (m < s.apply s.first) || decide (s.apply s.last < m)

/-- What a run of the table has to do: it moves code points to characters, which are small letters where they are
ASCII, which are neither of the two capitals that are treated apart, and which no run moves again. -/
def isTidy (s : Shift) : Bool :=
  (decide (0x80 ≤ s.apply s.first) || decide (0x61 ≤ s.apply s.first) && decide (s.apply s.last ≤ 0x7A)) &&
    (decide (s.apply s.last < 0xD800) ||
      decide (0xDFFF < s.apply s.first) && decide (s.apply s.last < 0x110000)) &&
    (s.avoids 'İ'.toNat && s.avoids 'Σ'.toNat) && smallShifts.all s.misses

theorem isTidy_of_mem : ∀ s ∈ smallShifts, s.isTidy = true := by decide +kernel

theorem covers_iff : s.covers n = true ↔ s.first ≤ n ∧ n ≤ s.last ∧ (n - s.first) % s.stride = 0 := by
  simp only [covers, Bool.and_eq_true, decide_eq_true_eq, beq_iff_eq, and_assoc]

/-- A run keeps the order of what it moves. -/
theorem apply_bounds (h : s.covers n = true) :
    s.apply s.first ≤ s.apply n ∧ s.apply n ≤ s.apply s.last := by
  obtain ⟨hfirst, hlast, -⟩ := covers_iff.mp h
  simp only [apply]
  omega

theorem ne_of_avoids {m : Nat} (h : s.avoids m = true) (hn : s.covers n = true) : s.apply n ≠ m := by
  have hbounds := apply_bounds hn
  rw [avoids, Bool.or_eq_true, decide_eq_true_eq, decide_eq_true_eq] at h
  omega

/-- What a run moves is not in a run that it misses. -/
theorem not_covers_of_misses (h : s.misses t = true) (hpos : 0 < s.apply s.first) (hn : s.covers n = true) :
    t.covers (s.apply n) = false := by
  have hbounds := apply_bounds hn
  obtain ⟨hfirst, hlast, hstride⟩ := covers_iff.mp hn
  rw [Bool.eq_false_iff]
  intro ht
  obtain ⟨htfirst, htlast, htstride⟩ := covers_iff.mp ht
  simp only [misses, Bool.or_eq_true, Bool.and_eq_true, Nat.blt_eq, beq_iff_eq] at h
  rcases h with (hbelow | habove) | ⟨⟨htwo, hsteps⟩, hodd⟩
  · omega
  · omega
  · -- the places of `t` are those at an even distance from its first one
    rw [htwo] at htstride
    have heven : (n - s.first) % 2 = 0 := by
      rcases hsteps with hsteps | hsingle
      · rwa [hsteps] at hstride
      · omega
    simp only [apply] at hpos hodd htfirst htstride
    omega

end Shift

/-- A code point stays, or it is moved by a run of the table. -/
theorem shifted_cases (table : List Shift) (n : Nat) :
    shifted table n = n ∨ ∃ s ∈ table, s.covers n = true ∧ shifted table n = s.apply n := by
  rw [shifted]
  cases hfind : table.find? (·.covers n) with
  | none => exact .inl rfl
  | some s =>
    have hn := List.find?_some hfind
    exact .inr ⟨s, List.mem_of_find?_eq_some hfind, hn, rfl⟩

/-- A code point that no run covers stays. -/
theorem shifted_of_not_covers {table : List Shift} {n : Nat} (h : ∀ t ∈ table, t.covers n = false) :
    shifted table n = n := by
  have hnone : table.find? (·.covers n) = none := by
    rw [List.find?_eq_none]
    intro t ht hcovers
    rw [h t ht] at hcovers
    cases hcovers
  rw [shifted, hnone]

/-! ## Small characters -/

/-- The characters that lowering can bring in. -/
inductive Small : Char → Prop
  | letter {c : Char} (h : c.isLower = true) : Small c
  | dot : Small '\u0307'
  | sigma : Small 'σ'
  | finalSigma : Small 'ς'
  | moved {c : Char} {s : Shift} {n : Nat} (hs : s ∈ smallShifts) (hn : s.covers n = true)
      (hc : c.toNat = s.apply n) : Small c

theorem isLower_iff {c : Char} : c.isLower = true ↔ 0x61 ≤ c.toNat ∧ c.toNat ≤ 0x7A := by
  show (decide (c.val ≥ 'a'.val) && decide (c.val ≤ 'z'.val)) = true ↔ _
  rw [Bool.and_eq_true, decide_eq_true_eq, decide_eq_true_eq]
  rfl

theorem isUpper_iff {c : Char} : c.isUpper = true ↔ 0x41 ≤ c.toNat ∧ c.toNat ≤ 0x5A := decide_eq_true_iff

/-- What is no capital of ASCII is left alone. -/
theorem toLower_of_not_isUpper {c : Char} (h : c.isUpper = false) : c.toLower = c := dif_neg (of_decide_eq_false h)

theorem toLower_of_isLower {c : Char} (h : c.isLower = true) : c.toLower = c := by
  refine toLower_of_not_isUpper ?_
  rw [Bool.eq_false_iff]
  intro hupper
  have hsmall := isLower_iff.mp h
  have hcapital := isUpper_iff.mp hupper
  omega

/-- A capital of ASCII becomes a small letter. -/
theorem isLower_toLower {c : Char} (h : c.isUpper = true) : c.toLower.isLower = true := by
  have hcapital := isUpper_iff.mp h
  have hmoved : c.toLower.toNat = c.toNat + 32 := by
    have hval : c.toLower.val = c.val + 32 := congrArg Char.val (dif_pos (of_decide_eq_true h))
    show c.toLower.val.toNat = c.val.toNat + 32
    have hcode : c.val.toNat = c.toNat := rfl
    rw [hval, UInt32.toNat_add, Nat.mod_eq_of_lt (by rw [hcode]; show c.toNat + 32 < 4294967296; omega)]
    rfl
  rw [isLower_iff]
  omega

namespace Small

variable {c : Char}

/-- Of ASCII only letters are small. -/
theorem isLower_of_ascii (h : Small c) (hascii : c.toNat < 0x80) : c.isLower = true := by
  cases h with
  | letter h => exact h
  | dot | sigma | finalSigma => exact absurd hascii (by decide)
  | @moved _ s n hs hn hc =>
    have hbounds := Shift.apply_bounds hn
    have htidy := Shift.isTidy_of_mem s hs
    simp only [Shift.isTidy, Bool.and_eq_true, Bool.or_eq_true, decide_eq_true_eq] at htidy
    rw [isLower_iff]
    omega

/-- A small character is no capital sigma, and is not moved again. -/
theorem stays (h : Small c) : c ≠ 'Σ' ∧ smallOf c = [c] := by
  cases h with
  | letter h =>
    have hascii := isLower_iff.mp h
    refine ⟨?_, ?_⟩
    · rintro rfl
      exact absurd hascii.2 (by decide)
    · rw [smallOf, if_pos (by omega), toLower_of_isLower h]
  | dot => exact ⟨by decide, by decide +kernel⟩
  | sigma => exact ⟨by decide, by decide +kernel⟩
  | finalSigma => exact ⟨by decide, by decide +kernel⟩
  | @moved _ s n hs hn hc =>
    have hletter := isLower_of_ascii (.moved hs hn hc)
    have hbounds := Shift.apply_bounds hn
    have htidy := Shift.isTidy_of_mem s hs
    simp only [Shift.isTidy, Bool.and_eq_true, Bool.or_eq_true, decide_eq_true_eq, List.all_eq_true] at htidy
    obtain ⟨⟨⟨hlow, -⟩, hdotted, hsigma⟩, hmisses⟩ := htidy
    have hne : ∀ d : Char, s.avoids d.toNat = true → c ≠ d := by
      rintro d hd rfl
      exact Shift.ne_of_avoids hd hn hc.symm
    refine ⟨hne 'Σ' hsigma, ?_⟩
    rw [smallOf]
    split
    · rename_i hascii
      rw [toLower_of_isLower (hletter hascii)]
    · have hstays : shifted smallShifts c.toNat = c.toNat := by
        refine shifted_of_not_covers fun t ht => ?_
        rw [hc]
        exact Shift.not_covers_of_misses (hmisses t ht) (by omega) hn
      rw [if_neg (hne 'İ' hdotted), hstays, Char.ofNat_toNat]

end Small

theorem toNat_ofNat {n : Nat} (h : n < 0xD800 ∨ 0xDFFF < n ∧ n < 0x110000) : (Char.ofNat n).toNat = n := by
  rw [Char.ofNat, dif_pos h]
  rfl

/-- A character that a run moves becomes the character at its new place. -/
theorem toNat_moved {s : Shift} {n : Nat} (hs : s ∈ smallShifts) (hn : s.covers n = true) :
    (Char.ofNat (s.apply n)).toNat = s.apply n := by
  have hbounds := Shift.apply_bounds hn
  have htidy := Shift.isTidy_of_mem s hs
  simp only [Shift.isTidy, Bool.and_eq_true, Bool.or_eq_true, decide_eq_true_eq] at htidy
  exact toNat_ofNat (by omega)

/-! ## One character -/

/-- The small form of a character is the character alone or it is small. -/
theorem smallOf_cases (c : Char) : smallOf c = [c] ∨ ∀ d ∈ smallOf c, Small d := by
  rw [smallOf]
  split
  · -- a letter of ASCII is made small, all else of ASCII stays
    cases hupper : c.isUpper with
    | true =>
      right
      intro d hd
      rw [List.mem_singleton] at hd
      rw [hd]
      exact .letter (isLower_toLower hupper)
    | false =>
      left
      rw [toLower_of_not_isUpper hupper]
  · split
    · right
      intro d hd
      rcases List.mem_cons.mp hd with rfl | hd
      · exact .letter (by decide)
      · rw [List.mem_singleton.mp hd]
        exact .dot
    · rcases shifted_cases smallShifts c.toNat with hstays | ⟨s, hs, hn, hmoved⟩
      · left
        rw [hstays, Char.ofNat_toNat]
      · right
        intro d hd
        rw [List.mem_singleton.mp hd, hmoved]
        exact .moved hs hn (toNat_moved hs hn)

theorem smallOf_ne_nil (c : Char) : smallOf c ≠ [] := by
  rw [smallOf]
  split
  · exact List.cons_ne_nil _ _
  · split <;> exact List.cons_ne_nil _ _

theorem small_smallSigma (before after : List Char) : Small (smallSigma before after) := by
  rw [smallSigma]
  split
  · exact .finalSigma
  · exact .sigma

/-! ## A text -/

/-- What is in the small form of a text is small, or it is in the text and stays. -/
theorem mem_smallAfter {before s : List Char} {d : Char} (h : d ∈ smallAfter before s) :
    Small d ∨ d ∈ s ∧ d ≠ 'Σ' ∧ smallOf d = [d] := by
  induction s generalizing before with
  | nil => cases h
  | cons c s ih =>
    rw [smallAfter, List.mem_append] at h
    rcases h with h | h
    · split at h
      · rw [List.mem_singleton.mp h]
        exact .inl (small_smallSigma before s)
      · rename_i hc
        rcases smallOf_cases c with halone | hsmall
        · rw [halone, List.mem_singleton] at h
          subst h
          exact .inr ⟨List.mem_cons_self, hc, halone⟩
        · exact .inl (hsmall d h)
    · rcases ih h with hsmall | ⟨hd, hstays⟩
      · exact .inl hsmall
      · exact .inr ⟨List.mem_cons_of_mem c hd, hstays⟩

/-- A text stays if all its characters do. -/
theorem smallAfter_of_stays {s : List Char} (h : ∀ c ∈ s, c ≠ 'Σ' ∧ smallOf c = [c]) (before : List Char) :
    smallAfter before s = s := by
  induction s generalizing before with
  | nil => rfl
  | cons c s ih =>
    obtain ⟨⟨hsigma, halone⟩, hs⟩ := List.forall_mem_cons.mp h
    rw [smallAfter, if_neg hsigma, halone, ih hs]
    rfl

/-- What lowering brings into a text is small. -/
theorem mem_lower {s : String} {c : Char} (h : c ∈ (lower s).toList) : c ∈ s.toList ∨ Small c := by
  rw [lower, String.toList_ofList] at h
  rcases mem_smallAfter h with hsmall | ⟨hc, -⟩
  · exact .inr hsmall
  · exact .inl hc

/-- A text in small letters is small. -/
theorem lower_lower (s : String) : lower (lower s) = lower s := by
  have hstays : ∀ c ∈ smallAfter [] s.toList, c ≠ 'Σ' ∧ smallOf c = [c] := by
    intro c hc
    rcases mem_smallAfter hc with hsmall | ⟨-, hstays⟩
    · exact hsmall.stays
    · exact hstays
  show String.ofList (smallAfter [] (String.ofList (smallAfter [] s.toList)).toList) = lower s
  rw [String.toList_ofList, smallAfter_of_stays hstays]
  rfl

theorem lower_eq_empty {s : String} : lower s = "" ↔ s = "" := by
  constructor
  · intro h
    cases hs : s.toList with
    | nil => rw [← String.ofList_toList (s := s), hs]
    | cons c cs =>
      have hnil : smallAfter [] s.toList = [] := by
        rw [lower] at h
        rw [← String.toList_ofList (l := smallAfter [] s.toList), h]
        rfl
      rw [hs, smallAfter, List.append_eq_nil_iff] at hnil
      have hfirst := hnil.1
      split at hfirst
      · exact absurd hfirst (List.cons_ne_nil _ _)
      · exact absurd hfirst (smallOf_ne_nil c)
  · rintro rfl
    rfl

end SchemaCatalog.Text
