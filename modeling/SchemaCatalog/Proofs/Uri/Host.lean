/-
  Hosts, as they stand in an accepted location.

  A host is a part of the authority behind its user part (`isHost_of_parse?`), so none of the characters is in
  it that end an authority, end a user part, are ignored or are like a delimiter; and it never has brackets of
  both kinds, because one that stands between brackets ends at the first closing one.  Making it small changes
  nothing of this (`IsHost.lower`): all that lowering brings in is small, and no character with a meaning is.

  A host that is put into an authority of its own, with a port behind it, is read back if it is bare: with
  neither a colon, which would start the port, nor a bracket (`hostPort_glued`).  No other is: what stands
  behind its first colon is no port, and its brackets do not match (`hostPort_of_colon`, `bracketsAgree_glued`).
-/
import SchemaCatalog.Uri.HostPort
import SchemaCatalog.Proofs.Uri.Parts
import SchemaCatalog.Proofs.Text.Case
import Mathlib.Data.List.DropRight

namespace SchemaCatalog.Uri

open Text (Small)

variable {host authority : List Char} {c : Char}

/-! ## Characters with a meaning -/

/-- The characters with a meaning where an authority is taken apart. -/
def marks : List Char := ['/', '?', '#', '@', '\t', '\r', '\n', ':', '[', ']', '%']

/-- The characters with a meaning stay as they are in small letters, and no other becomes one. -/
theorem not_mem_marks_of_small (h : Small c) : c ∉ marks := by
  intro hc
  have hmarks : marks.all (fun d => decide (d.toNat < 0x80) && !d.isLower) = true := by decide
  have hmark := List.all_eq_true.mp hmarks c hc
  rw [Bool.and_eq_true, decide_eq_true_eq, Bool.not_eq_true'] at hmark
  rw [h.isLower_of_ascii hmark.1] at hmark
  cases hmark.2

theorem avoids_delimiterLike : ∀ s ∈ Text.smallShifts, ∀ m ∈ delimiterLike, s.avoids m = true := by
  decide +kernel

/-- No small character is like a delimiter. -/
theorem not_mem_delimiterLike_of_small (h : Small c) : c.toNat ∉ delimiterLike := by
  intro hc
  cases h with
  | letter h =>
    have hlarge : ∀ m ∈ delimiterLike, 0x7A < m := by decide
    have hletter := (Text.isLower_iff.mp h).2
    have hlike := hlarge _ hc
    omega
  | dot | sigma | finalSigma => exact absurd hc (by decide)
  | moved hs hn hmoved => exact Text.Shift.ne_of_avoids (avoids_delimiterLike _ hs _ hc) hn hmoved.symm

theorem staysApart_iff : staysApart authority = true ↔ ∀ c ∈ authority, c.toNat ∉ delimiterLike := by
  rw [staysApart, List.all_eq_true]
  refine forall₂_congr fun c _ => ?_
  rw [Bool.not_eq_true', ← Bool.not_eq_true, List.contains_iff_mem]

/-! ## Small letters -/

theorem toList_lowerHost (host : List Char) :
    (lowerHost host).toList =
      (Text.lower (String.ofList (Text.before '%' host))).toList ++ host.dropWhile (· != '%') := by
  rw [lowerHost, String.toList_append, String.toList_ofList]

/-- What lowering brings into a host is small. -/
theorem mem_lowerHost (h : c ∈ (lowerHost host).toList) : c ∈ host ∨ Small c := by
  rw [toList_lowerHost, List.mem_append] at h
  rcases h with h | h
  · have hname := Text.mem_lower h
    rw [String.toList_ofList] at hname
    exact hname.imp_left Text.mem_of_mem_before
  · exact .inl ((List.dropWhile_suffix _).subset h)

theorem mem_of_mem_lowerHost (h : c ∈ (lowerHost host).toList) (hc : c ∈ marks) : c ∈ host :=
  (mem_lowerHost h).resolve_right fun hsmall => not_mem_marks_of_small hsmall hc

/-- What no character of a host is, none is after lowering, if only characters with a meaning are. -/
theorem eq_false_of_mem_lowerHost {f : Char → Bool} (hf : ∀ c, f c = true → c ∈ marks)
    (h : ∀ c ∈ host, f c = false) (hc : c ∈ (lowerHost host).toList) : f c = false := by
  rw [Bool.eq_false_iff]
  intro hmark
  rw [h c (mem_of_mem_lowerHost hc (hf c hmark))] at hmark
  cases hmark

theorem lowerHost_ne_nil (h : host ≠ []) : (lowerHost host).toList ≠ [] := by
  intro hnil
  rw [toList_lowerHost, List.append_eq_nil_iff, String.toList_eq_nil_iff, Text.lower_eq_empty] at hnil
  have hbefore : Text.before '%' host = [] := by
    rw [← String.toList_ofList (l := Text.before '%' host), hnil.1, String.toList_empty]
  have hwhole : Text.before '%' host ++ host.dropWhile (· != '%') = host := List.takeWhile_append_dropWhile
  rw [hbefore, hnil.2] at hwhole
  exact h hwhole.symm

/-- A host in small letters is small, its zone left alone a second time. -/
theorem lowerHost_lowerHost (host : List Char) : lowerHost (lowerHost host).toList = lowerHost host := by
  have hname : ∀ c ∈ (Text.lower (String.ofList (Text.before '%' host))).toList, (c != '%') = true := by
    intro c hc
    rw [bne_iff_ne]
    rintro rfl
    rcases Text.mem_lower hc with hc | hc
    · rw [String.toList_ofList] at hc
      exact Text.not_mem_before '%' host hc
    · exact not_mem_marks_of_small hc (by decide)
  have hzone : (lowerHost host).toList.dropWhile (· != '%') = host.dropWhile (· != '%') := by
    rw [toList_lowerHost, List.dropWhile_append_of_pos hname, List.dropWhile_idempotent]
  have hbefore : Text.before '%' (lowerHost host).toList =
      (Text.lower (String.ofList (Text.before '%' host))).toList := by
    have hwhole : Text.before '%' (lowerHost host).toList ++ (lowerHost host).toList.dropWhile (· != '%') =
        (lowerHost host).toList := List.takeWhile_append_dropWhile
    rw [hzone, toList_lowerHost] at hwhole
    rw [toList_lowerHost]
    exact List.append_cancel_right hwhole
  rw [lowerHost, hbefore, hzone, String.ofList_toList, Text.lower_lower]
  rfl

/-! ## Hosts -/

/-- A text as it can be the host of an authority. -/
structure IsHost (host : List Char) : Prop where
  ne_nil : host ≠ []
  inside : ∀ c ∈ host, endsAuthority c = false
  visible : ∀ c ∈ host, isIgnored c = false
  userless : '@' ∉ host
  apart : staysApart host = true
  unpaired : '[' ∉ host ∨ ']' ∉ host

/-- The host of an authority is what stands behind the user part, or between its brackets. -/
theorem mem_of_mem_hostPort (h : c ∈ (hostPort authority).1) : c ∈ Text.afterLast '@' authority := by
  rw [hostPort] at h
  split at h
  · rename_i inside hinside
    exact Text.mem_of_mem_after? hinside (Text.mem_of_mem_before h)
  · exact Text.mem_of_mem_before h

theorem unpaired_hostPort (authority : List Char) :
    '[' ∉ (hostPort authority).1 ∨ ']' ∉ (hostPort authority).1 := by
  rw [hostPort]
  split
  · exact .inr (Text.not_mem_before ']' _)
  · rename_i hnone
    exact .inl fun h => Text.after?_eq_none_iff.mp hnone (Text.mem_of_mem_before h)

/-- The host of an accepted location, if it is not empty. -/
theorem isHost_of_parse? {s : List Char} {u : Uri} (h : parse? s = some u) (hne : (hostPort u.authority).1 ≠ []) :
    IsHost (hostPort u.authority).1 := by
  obtain ⟨⟨rest, hcut⟩, -, hapart⟩ := authority_of_parse? h
  have hmem : ∀ c ∈ (hostPort u.authority).1, c ∈ u.authority := fun c hc =>
    Text.mem_of_mem_afterLast (mem_of_mem_hostPort hc)
  have hauthority : u.authority ≠ [] := by
    obtain ⟨c, cs, hcs⟩ := List.exists_cons_of_ne_nil hne
    exact List.ne_nil_of_mem (hmem c (by rw [hcs]; exact List.mem_cons_self))
  exact {
    ne_nil := hne
    inside := fun c hc => (cutAuthority_eq hcut hauthority).2.1 c (hmem c hc)
    visible := fun c hc => not_isIgnored_of_mem_cleaned (mem_cleaned_of_mem_authority hcut (hmem c hc))
    userless := fun hc => Text.not_mem_afterLast '@' _ (mem_of_mem_hostPort hc)
    apart := staysApart_iff.mpr fun c hc => staysApart_iff.mp hapart c (hmem c hc)
    unpaired := unpaired_hostPort u.authority }

/-- A host is one in small letters too. -/
theorem IsHost.lower (h : IsHost host) : IsHost (lowerHost host).toList where
  ne_nil := lowerHost_ne_nil h.ne_nil
  inside := by
    intro c
    refine eq_false_of_mem_lowerHost (fun c hends => ?_) h.inside
    simp only [endsAuthority, Bool.or_eq_true, beq_iff_eq] at hends
    rcases hends with (rfl | rfl) | rfl <;> decide
  visible := by
    intro c
    refine eq_false_of_mem_lowerHost (fun c hignored => ?_) h.visible
    simp only [isIgnored, Bool.or_eq_true, beq_iff_eq] at hignored
    rcases hignored with (rfl | rfl) | rfl <;> decide
  userless := fun hc => h.userless (mem_of_mem_lowerHost hc (by decide))
  apart := by
    rw [staysApart_iff]
    intro c hc
    rcases mem_lowerHost hc with hc | hc
    · exact staysApart_iff.mp h.apart c hc
    · exact not_mem_delimiterLike_of_small hc
  unpaired := h.unpaired.imp (fun hopen hc => hopen (mem_of_mem_lowerHost hc (by decide)))
    fun hclose hc => hclose (mem_of_mem_lowerHost hc (by decide))

/-! ## A host put into an authority -/

/-- Without a user part and brackets, an authority is cut at its first colon. -/
theorem hostPort_plain (huser : '@' ∉ authority) (hopen : '[' ∉ authority) :
    hostPort authority = (Text.before ':' authority, (Text.after? ':' authority).getD []) := by
  simp only [hostPort, Text.afterLast_of_not_mem huser, Text.after?_eq_none_iff.mpr hopen]

/-- A host that can stand in an authority without brackets, and be told apart from its port. -/
def IsBare (host : List Char) : Prop := ':' ∉ host ∧ '[' ∉ host ∧ ']' ∉ host

instance : Decidable (IsBare host) := inferInstanceAs (Decidable (_ ∧ _ ∧ _))

/-- What is no digit stands in an authority where it stands in the host. -/
theorem mem_glued_iff {port : List Char} (hport : ∀ d ∈ port, d.isDigit = true) (hc : c.isDigit = false)
    (hcolon : c ≠ ':') : c ∈ host ++ ':' :: port ↔ c ∈ host := by
  rw [List.mem_append, List.mem_cons]
  refine ⟨fun h => ?_, .inl⟩
  rcases h with h | h | h
  · exact h
  · exact absurd h hcolon
  · rw [hport c h] at hc
    cases hc

/-- The colon before a port and its digits mean nothing where the authority as a whole is found. -/
theorem inside_of_port (h : c = ':' ∨ c.isDigit = true) :
    endsAuthority c = false ∧ isIgnored c = false ∧ c.toNat ∉ delimiterLike := by
  rcases h with rfl | h
  · decide
  · have hnot : ∀ d : Char, d.isDigit = false → (c == d) = false := by
      intro d hd
      rw [beq_eq_false_iff_ne]
      rintro rfl
      rw [h] at hd
      cases hd
    refine ⟨?_, ?_, fun hlike => ?_⟩
    · rw [endsAuthority, hnot '/' rfl, hnot '?' rfl, hnot '#' rfl]
      rfl
    · rw [isIgnored, hnot '\t' rfl, hnot '\r' rfl, hnot '\n' rfl]
      rfl
    · have hlarge : ∀ m ∈ delimiterLike, 57 < m := by decide
      have hdigit := (Char.isDigit_iff_toNat.mp h).2
      have := hlarge _ hlike
      have h9 : '9'.toNat = 57 := rfl
      omega

variable {port : List Char} (hport : ∀ d ∈ port, d.isDigit = true)

include hport in
/-- A host and a port behind it are fit for an authority but for the brackets. -/
theorem IsHost.glued (h : IsHost host) :
    (∀ c ∈ host ++ ':' :: port, endsAuthority c = false) ∧ (∀ c ∈ host ++ ':' :: port, isIgnored c = false) ∧
      staysApart (host ++ ':' :: port) = true := by
  have hsplit : ∀ c ∈ host ++ ':' :: port, c ∈ host ∨ c = ':' ∨ c.isDigit = true := by
    intro c hc
    rw [List.mem_append, List.mem_cons] at hc
    exact hc.imp_right fun hc => hc.imp_right (hport c)
  refine ⟨fun c hc => ?_, fun c hc => ?_, staysApart_iff.mpr fun c hc => ?_⟩
  · exact (hsplit c hc).elim (h.inside c) fun hc => (inside_of_port hc).1
  · exact (hsplit c hc).elim (h.visible c) fun hc => (inside_of_port hc).2.1
  · exact (hsplit c hc).elim (staysApart_iff.mp h.apart c) fun hc => (inside_of_port hc).2.2

include hport in
/-- A bare host and its port are read back. -/
theorem hostPort_glued (huser : '@' ∉ host) (hbare : IsBare host) :
    hostPort (host ++ ':' :: port) = (host, port) := by
  have hplain := hostPort_plain (fun h => huser ((mem_glued_iff hport rfl (by decide)).mp h))
    fun h => hbare.2.1 ((mem_glued_iff hport rfl (by decide)).mp h)
  rw [hplain, Text.before_glued hbare.1, Text.after?_glued hbare.1, Option.getD_some]

include hport in
/-- Behind the first colon of a host there is another one: that of the port. -/
theorem hostPort_of_colon (huser : '@' ∉ host) (hopen : '[' ∉ host) (hcolon : ':' ∈ host) :
    ':' ∈ (hostPort (host ++ ':' :: port)).2 := by
  have hplain := hostPort_plain (fun h => huser ((mem_glued_iff hport rfl (by decide)).mp h))
    fun h => hopen ((mem_glued_iff hport rfl (by decide)).mp h)
  cases hafter : Text.after? ':' host with
  | none => exact absurd hcolon (Text.after?_eq_none_iff.mp hafter)
  | some rest =>
    have hwhole : host ++ ':' :: port = Text.before ':' host ++ ':' :: (rest ++ ':' :: port) := by
      rw [← List.cons_append, ← List.append_assoc, ← Text.eq_of_after? hafter]
    have hafter' : Text.after? ':' (host ++ ':' :: port) = some (rest ++ ':' :: port) := by
      rw [hwhole, Text.after?_glued (Text.not_mem_before ':' host)]
    rw [hplain, hafter']
    exact List.mem_append_right _ List.mem_cons_self

include hport in
/-- The brackets of an authority match if its host has none; brackets of one kind never do. -/
theorem bracketsAgree_glued (h : '[' ∉ host ∨ ']' ∉ host) :
    bracketsAgree (host ++ ':' :: port) = true ↔ '[' ∉ host ∧ ']' ∉ host := by
  have hsame : ∀ c : Char, c.isDigit = false → c ≠ ':' → (host ++ ':' :: port).contains c = host.contains c := by
    intro c hc hcolon
    rw [Bool.eq_iff_iff, List.contains_iff_mem, List.contains_iff_mem]
    exact mem_glued_iff hport hc hcolon
  rw [bracketsAgree, hsame '[' rfl (by decide), hsame ']' rfl (by decide)]
  by_cases hfirst : '[' ∈ host
  · simp [hfirst, h.resolve_left (not_not_intro hfirst)]
  · by_cases hsecond : ']' ∈ host <;> simp [hfirst, hsecond]

/-! ## Ports -/

theorem port?_eq_none_of_mem {s : List Char} (h : c ∈ s) (hc : c.isDigit = false) : port? s = none := by
  have hall : s.all Char.isDigit = false := by
    rw [List.all_eq_false]
    exact ⟨c, h, by rw [hc]; exact Bool.false_ne_true⟩
  rw [port?, hall, Bool.and_false, Bool.false_and, if_neg Bool.false_ne_true]

/-- A port is written, and a number that fits. -/
theorem ne_nil_of_port? {s : List Char} {n : Nat} (h : port? s = some n) : s ≠ [] ∧ n ≤ 65535 := by
  unfold port? at h
  dsimp only at h
  split at h
  · rename_i hwritten
    split at h
    · rename_i hfits
      cases h
      refine ⟨?_, hfits⟩
      rintro rfl
      cases hwritten
    · cases h
  · cases h

/-- A number that fits is read back from its digits. -/
theorem port?_toDigits {n : Nat} (h : n ≤ 65535) : port? (Nat.toDigits 10 n) = some n := by
  have hne : (Nat.toDigits 10 n).isEmpty = false := List.isEmpty_eq_false_iff.mpr Nat.toDigits_ne_nil
  have hdigits : (Nat.toDigits 10 n).all Char.isDigit = true :=
    List.all_eq_true.mpr fun d hd => Nat.isDigit_of_mem_toDigits (by decide) (by decide) hd
  have hlength : (Nat.toDigits 10 n).length ≤ 4300 := by
    have : (Nat.toDigits 10 n).length ≤ 5 := (Nat.length_toDigits_le_iff (by decide) (by decide)).mpr (by omega)
    omega
  rw [port?, hne, hdigits, decide_eq_true hlength]
  simp only [Nat.ofDigitChars_ten_toDigits, h, Bool.not_false, Bool.and_self, if_true]

/-- Where there is a port, there is a colon before it. -/
theorem colon_mem_of_hostPort (h : (hostPort authority).2 ≠ []) : ':' ∈ authority := by
  have hcolon : ∀ s : List Char, (Text.after? ':' s).getD [] ≠ [] → ':' ∈ s := by
    intro s hs
    by_contra hnot
    rw [Text.after?_eq_none_iff.mpr hnot] at hs
    exact hs rfl
  suffices hlast : ':' ∈ Text.afterLast '@' authority from Text.mem_of_mem_afterLast hlast
  rw [hostPort] at h
  split at h
  · rename_i inside hinside
    refine Text.mem_of_mem_after? hinside ?_
    have hport := hcolon _ h
    cases hclose : Text.after? ']' inside with
    | none => rw [hclose] at hport; cases hport
    | some behind =>
      rw [hclose] at hport
      exact Text.mem_of_mem_after? hclose hport
  · exact hcolon _ h

end SchemaCatalog.Uri
