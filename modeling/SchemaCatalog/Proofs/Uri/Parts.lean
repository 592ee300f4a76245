/-
  The parts of a location, put together and taken apart.

  1. **Taken apart.**  What is ignored is not in any part, and each part is a piece of the cleaned text.  An
     authority that is there stands behind two slashes, and what follows it is nothing or starts with a
     character that ends authorities (`cutAuthority_eq`).

  2. **Put together.**  Behind a scheme and two slashes an authority is cut off again, whatever may follow it
     (`cutScheme_glued`, `cutAuthority_glued`), and nothing is lost by the cleaning (`cleaned_glued`).  So a
     location that is an authority and nothing else is accepted if the authority is fit for one
     (`parse?_glued`).

  3. **Written on.**  Text that is added behind a location cannot reach its authority if it starts with a character
     that ends authorities, provided that the scheme has been found before: there must be a colon in the location
     already (`parse?_append`).
-/
import SchemaCatalog.Uri.Basic
import SchemaCatalog.Proofs.Text.Cut

namespace SchemaCatalog.Uri

variable {s t authority rest : List Char} {c : Char}

/-! ## Taken apart -/

theorem not_isIgnored_of_mem_cleaned (h : c ∈ cleaned s) : isIgnored c = false := by
  rw [cleaned, List.mem_filter, Bool.not_eq_true'] at h
  exact h.2

theorem mem_of_mem_cutScheme (h : c ∈ (cutScheme s).2) : c ∈ s := by
  unfold cutScheme at h
  split at h
  · rename_i rest hrest
    dsimp only at h
    split at h
    · exact Text.mem_of_mem_after? hrest h
    · exact h
  · exact h

/-- Behind an authority a path, a query or a fragment starts, or nothing. -/
theorem cutAuthority_eq (h : cutAuthority s = (authority, rest)) (hne : authority ≠ []) :
    s = '/' :: '/' :: (authority ++ rest) ∧ (∀ c ∈ authority, endsAuthority c = false) ∧
      ∀ c ∈ rest.head?, endsAuthority c = true := by
  unfold cutAuthority at h
  split at h
  · rename_i t
    cases h
    refine ⟨by rw [List.takeWhile_append_dropWhile], fun c hc => ?_, fun c hc => ?_⟩
    · simpa using List.mem_takeWhile_imp hc
    · cases hrest : t.dropWhile fun c => !endsAuthority c with
      | nil => rw [hrest] at hc; cases hc
      | cons d ds =>
        rw [hrest, List.head?_cons, Option.mem_some_iff] at hc
        have hstop := List.head?_dropWhile_not (fun c => !endsAuthority c) t
        rw [hrest] at hstop
        subst hc
        simpa using hstop
  · cases h
    exact absurd rfl hne

/-- A location is accepted with the authority that is cut off its cleaned text, if that is fit for one. -/
theorem authority_of_parse? {u : Uri} (h : parse? s = some u) :
    (∃ rest, cutAuthority (cutScheme (cleaned s)).2 = (u.authority, rest)) ∧
      bracketsAgree u.authority = true ∧ staysApart u.authority = true := by
  unfold parse? at h
  rcases hscheme : cutScheme (cleaned s) with ⟨scheme, s₁⟩
  rcases hauthority : cutAuthority s₁ with ⟨authority, s₂⟩
  simp only [hscheme, hauthority] at h
  split at h
  · rename_i hfit
    cases h
    rw [Bool.and_eq_true] at hfit
    exact ⟨⟨s₂, rfl⟩, hfit⟩
  · cases h

/-- The characters of an authority that is there. -/
theorem mem_cleaned_of_mem_authority (h : cutAuthority (cutScheme (cleaned s)).2 = (authority, rest))
    (hc : c ∈ authority) : c ∈ cleaned s := by
  have hs := (cutAuthority_eq h (List.ne_nil_of_mem hc)).1
  refine mem_of_mem_cutScheme ?_
  rw [hs]
  exact List.mem_cons_of_mem _ (List.mem_cons_of_mem _ (List.mem_append_left rest hc))

/-! ## Put together -/

/-- A scheme starts with something visible, and no character of it is ignored or ends it. -/
theorem scheme_visible {scheme : List Char} (h : isScheme scheme = true) :
    (∃ c cs, scheme = c :: cs ∧ 0x20 < c.toNat) ∧ ∀ c ∈ scheme, isIgnored c = false ∧ c ≠ ':' := by
  rw [isScheme, Bool.and_eq_true, List.all_eq_true] at h
  obtain ⟨hhead, hall⟩ := h
  constructor
  · cases scheme with
    | nil => cases hhead
    | cons c cs =>
      refine ⟨c, cs, rfl, ?_⟩
      have hletter : (c.isUpper || c.isLower) = true := hhead
      have : 65 ≤ c.val.toNat := by
        rcases Bool.or_eq_true_iff.mp hletter with hupper | hlower
        · have hlow : 'A'.val ≤ c.val := (of_decide_eq_true hupper).1
          exact hlow
        · have hlow : 'a'.val ≤ c.val := of_decide_eq_true (Bool.and_eq_true_iff.mp hlower).1
          exact Nat.le_trans (by decide) hlow
      show 0x20 < c.val.toNat
      omega
  · intro c hc
    have hchar := hall c hc
    have hnot : ∀ d : Char, isSchemeChar d = false → c ≠ d := by
      rintro d hd rfl
      rw [hchar] at hd
      cases hd
    refine ⟨?_, hnot ':' (by decide)⟩
    simp [isIgnored, hnot '\t' (by decide), hnot '\r' (by decide), hnot '\n' (by decide)]

/-- A letter and more letters, digits and marks are a scheme. -/
theorem isScheme_of_letters {c : Char} {cs : List Char} (hc : c.isAlpha = true)
    (hcs : ∀ d ∈ cs, d.isAlphanum = true ∨ d ∈ ['+', '-', '.']) : isScheme (c :: cs) = true := by
  have hfirst : isSchemeChar c = true := by simp [isSchemeChar, Char.isAlphanum, hc]
  have hrest : ∀ d ∈ cs, isSchemeChar d = true := by
    intro d hd
    simpa [isSchemeChar, or_assoc] using hcs d hd
  rw [isScheme, List.head?_cons, Option.any_some, hc, Bool.true_and, List.all_eq_true]
  exact List.forall_mem_cons.mpr ⟨hfirst, hrest⟩

theorem cutScheme_glued {scheme : List Char} (h : isScheme scheme = true) (rest : List Char) :
    cutScheme (scheme ++ ':' :: rest) = (scheme.map Char.toLower, rest) := by
  have hnot : ':' ∉ scheme := fun hc => ((scheme_visible h).2 ':' hc).2 rfl
  simp only [cutScheme, Text.after?_glued hnot, Text.before_glued hnot, h, if_true]

/-- Nothing is dropped behind a scheme if nothing is ignored. -/
theorem cleaned_glued {scheme : List Char} (hscheme : isScheme scheme = true)
    (hvisible : ∀ c ∈ t, isIgnored c = false) :
    cleaned (scheme ++ ':' :: '/' :: '/' :: t) = scheme ++ ':' :: '/' :: '/' :: t := by
  obtain ⟨⟨c, cs, hcs, hc⟩, hall⟩ := scheme_visible hscheme
  have hfirst : (scheme ++ ':' :: '/' :: '/' :: t).dropWhile (fun c => decide (c.toNat ≤ 0x20)) =
      scheme ++ ':' :: '/' :: '/' :: t := by
    rw [hcs, List.cons_append, List.dropWhile_cons_of_neg (by simpa using hc)]
  rw [cleaned, hfirst, List.filter_eq_self]
  intro d hd
  simp only [List.mem_append, List.mem_cons] at hd
  rcases hd with hd | rfl | rfl | rfl | hd
  · rw [(hall d hd).1]; rfl
  · rfl
  · rfl
  · rfl
  · rw [hvisible d hd]; rfl

/-- An authority is cut off in front of nothing, and of whatever ends authorities. -/
theorem cutAuthority_glued (hauthority : ∀ c ∈ authority, endsAuthority c = false)
    (hrest : ∀ c ∈ rest.head?, endsAuthority c = true) :
    cutAuthority ('/' :: '/' :: (authority ++ rest)) = (authority, rest) := by
  have hpos : ∀ c ∈ authority, (!endsAuthority c) = true := fun c hc => by rw [hauthority c hc]; rfl
  rw [cutAuthority, List.takeWhile_append_of_pos hpos, List.dropWhile_append_of_pos hpos]
  cases rest with
  | nil => rw [List.takeWhile_nil, List.dropWhile_nil, List.append_nil]
  | cons c rest => simp [hrest c rfl]

/-- Behind a scheme an authority is found as it was put there, if it is fit for one. -/
theorem parse?_glued {scheme : List Char} (hscheme : isScheme scheme = true)
    (hinside : ∀ c ∈ authority, endsAuthority c = false) (hvisible : ∀ c ∈ authority, isIgnored c = false) :
    parse? (scheme ++ ':' :: '/' :: '/' :: authority) =
      if bracketsAgree authority && staysApart authority then some ⟨scheme.map Char.toLower, authority, []⟩
      else none := by
  have hend : ∀ c ∈ ([] : List Char).head?, endsAuthority c = true := fun c hc => by cases hc
  have hcut := cutAuthority_glued hinside hend
  rw [List.append_nil] at hcut
  simp only [parse?, cleaned_glued hscheme hvisible, cutScheme_glued hscheme, hcut, List.takeWhile_nil]

/-! ## Written on -/

/-- Once something has been found in a location, all that follows is kept but what is ignored everywhere. -/
theorem cleaned_append (h : cleaned s ≠ []) (t : List Char) :
    cleaned (s ++ t) = cleaned s ++ t.filter fun c => !isIgnored c := by
  have hne : (s.dropWhile fun c => decide (c.toNat ≤ 0x20)).isEmpty = false := by
    rw [List.isEmpty_eq_false_iff]
    intro hnil
    rw [cleaned, hnil] at h
    exact h rfl
  rw [cleaned, List.dropWhile_append, hne, if_neg Bool.false_ne_true, List.filter_append]
  rfl

/-- Once there is a colon, what follows is no part of the scheme. -/
theorem cutScheme_append (h : ':' ∈ s) (t : List Char) :
    cutScheme (s ++ t) = ((cutScheme s).1, (cutScheme s).2 ++ t) := by
  cases hafter : Text.after? ':' s with
  | none => exact absurd h (Text.after?_eq_none_iff.mp hafter)
  | some rest =>
    have hs := Text.eq_of_after? hafter
    have hnot := Text.not_mem_before ':' s
    have hst : s ++ t = Text.before ':' s ++ ':' :: (rest ++ t) := by
      rw [← List.cons_append, ← List.append_assoc, ← hs]
    have hafter' : Text.after? ':' (s ++ t) = some (rest ++ t) := by rw [hst, Text.after?_glued hnot]
    have hbefore' : Text.before ':' (s ++ t) = Text.before ':' s := by rw [hst, Text.before_glued hnot]
    simp only [cutScheme, hafter, hafter', hbefore']
    split <;> rfl

theorem cutAuthority_append (h : cutAuthority s = (authority, rest)) (hne : authority ≠ [])
    (ht : ∀ c ∈ t.head?, endsAuthority c = true) : cutAuthority (s ++ t) = (authority, rest ++ t) := by
  obtain ⟨hs, hauthority, hrest⟩ := cutAuthority_eq h hne
  have hst : s ++ t = '/' :: '/' :: (authority ++ (rest ++ t)) := by
    rw [hs, List.cons_append, List.cons_append, List.append_assoc]
  rw [hst]
  refine cutAuthority_glued hauthority ?_
  cases rest with
  | nil => exact ht
  | cons c rest => exact hrest

/-- **Written on.**  The authority of a location, if it has a port, does not depend on what follows it. -/
theorem parse?_append {u : Uri} (h : parse? s = some u) (hcolon : ':' ∈ u.authority) {c : Char}
    (hc : endsAuthority c = true) (t : List Char) :
    ∃ v, parse? (s ++ c :: t) = some v ∧ v.authority = u.authority := by
  obtain ⟨⟨rest, hcut⟩, hbrackets, hapart⟩ := authority_of_parse? h
  have hmem : ':' ∈ cleaned s := mem_cleaned_of_mem_authority hcut hcolon
  have hkept : (c :: t).filter (fun c => !isIgnored c) = c :: t.filter fun c => !isIgnored c := by
    refine List.filter_cons_of_pos ?_
    simp only [endsAuthority, Bool.or_eq_true, beq_iff_eq] at hc
    rcases hc with (rfl | rfl) | rfl <;> rfl
  have hcleaned := cleaned_append (List.ne_nil_of_mem hmem) (c :: t)
  rw [hkept] at hcleaned
  have hcut' := cutAuthority_append hcut (List.ne_nil_of_mem hcolon) (t := c :: t.filter fun c => !isIgnored c)
    fun d hd => by rw [Option.mem_some_iff.mp hd] at hc; exact hc
  have hparsed : parse? (s ++ c :: t) = some ⟨(cutScheme (cleaned s)).1, u.authority,
      (rest ++ c :: t.filter fun c => !isIgnored c).takeWhile fun c => !endsPath c⟩ := by
    simp only [parse?, hcleaned, cutScheme_append hmem, hcut', hbrackets, hapart, Bool.and_self, if_true]
  exact ⟨_, hparsed, rfl⟩

end SchemaCatalog.Uri
