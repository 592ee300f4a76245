/-
  The parts of an authority, as they are written.

  An authority is a user part up to its last `@`, a host, and a port behind a colon, and only the host has to be
  there.  `userPart`, `hostPart` and `portPart` are these three together with the marks that set them off, so that
  nothing is lost: glued, they are the authority again (`glued_parts`).

  `hostPort` looks at the same parts with other eyes.  It reads the host without brackets and the port without its
  colon, and it does so for any text.  For an authority that can be accepted, whose brackets match, the two views
  agree (`isParted`); the closing bracket alone may be missing, if there is one in the user part.
-/
import SchemaCatalog.Proofs.Uri.Host

namespace SchemaCatalog.Uri

variable {authority : List Char}

/-- The user part of an authority, with the `@` behind it. -/
def userPart (authority : List Char) : List Char :=
  authority.take (authority.length - (Text.afterLast '@' authority).length)

/-- The host at the start of a text, with the brackets around it: up to the closing bracket if it has an opening
one, else up to the first colon. -/
def leadingHost : List Char → List Char
  | '[' :: inside => '[' :: inside.take ((Text.before ']' inside).length + 1)
  | s => Text.before ':' s

/-- The host of an authority, with the brackets around it. -/
def hostPart (authority : List Char) : List Char := leadingHost (Text.afterLast '@' authority)

/-- The port of an authority, with the colon before it. -/
def portPart (authority : List Char) : List Char :=
  (Text.afterLast '@' authority).drop (hostPart authority).length

/-! ## Nothing is lost -/

theorem userPart_append (authority : List Char) : userPart authority ++ Text.afterLast '@' authority = authority :=
  List.suffix_iff_eq_append.mp (Text.afterLast_suffix '@' authority)

theorem leadingHost_isPrefix (s : List Char) : leadingHost s <+: s := by
  unfold leadingHost
  split
  · exact List.cons_prefix_cons.mpr ⟨rfl, List.take_prefix _ _⟩
  · exact List.takeWhile_prefix _

theorem hostPart_append (authority : List Char) :
    hostPart authority ++ portPart authority = Text.afterLast '@' authority :=
  List.prefix_iff_eq_append.mp (leadingHost_isPrefix _)

/-- An authority is its parts. -/
theorem glued_parts (authority : List Char) :
    userPart authority ++ (hostPart authority ++ portPart authority) = authority := by
  rw [hostPart_append, userPart_append]

/-! ## What the parts look like -/

/-- There is no user part without an `@`, and none behind the last one. -/
theorem userPart_cases (authority : List Char) :
    (userPart authority = [] ∧ '@' ∉ authority) ∨ ∃ name, userPart authority = name ++ ['@'] := by
  by_cases huser : '@' ∈ authority
  · obtain ⟨name, hname⟩ := Text.exists_of_afterLast huser
    refine .inr ⟨name, ?_⟩
    have hglued := (userPart_append authority).trans hname
    rw [List.append_cons] at hglued
    exact List.append_cancel_right hglued
  · have hglued := userPart_append authority
    rw [Text.afterLast_of_not_mem huser] at hglued
    exact .inl ⟨List.append_left_eq_self.mp hglued, huser⟩

theorem userPart_eq_nil : userPart authority = [] ↔ '@' ∉ authority := by
  rcases userPart_cases authority with ⟨hnil, huser⟩ | ⟨name, hname⟩
  · exact ⟨fun _ => huser, fun _ => hnil⟩
  · have hmem : '@' ∈ authority := by
      rw [← userPart_append authority, hname]
      exact List.mem_append_left _ (List.mem_append_right name List.mem_cons_self)
    refine ⟨fun hnil => ?_, fun huser => absurd hmem huser⟩
    rw [hnil] at hname
    exact absurd hname (List.append_ne_nil_of_right_ne_nil name (List.cons_ne_nil _ _)).symm

/-! ## What is read of them -/

/-- What stands behind the user part, if the brackets match: no opening bracket, or one at the start; and behind
the closing one nothing or a colon. -/
theorem behind_user_cases (h : bracketsAgree authority = true) :
    '[' ∉ Text.afterLast '@' authority ∨
      ∃ inside, Text.afterLast '@' authority = '[' :: inside ∧
        (']' ∉ inside ∨ Text.after? ']' inside = some [] ∨
          ∃ port, Text.after? ']' inside = some (':' :: port)) := by
  by_cases hopen : '[' ∈ Text.afterLast '@' authority
  · refine .inr ?_
    have hfirst : authority.contains '[' = true := List.contains_iff_mem.mpr (Text.mem_of_mem_afterLast hopen)
    rw [bracketsAgree, hfirst] at h
    cases hsecond : authority.contains ']' with
    | false => rw [hsecond] at h; cases h
    | true =>
      rw [hsecond] at h
      cases hinside : Text.after? '[' (Text.afterLast '@' authority) with
      | none => exact absurd hopen (Text.after?_eq_none_iff.mp hinside)
      | some inside =>
        simp only [bracketedHost?, hinside] at h
        split at h
        · cases h
        · rename_i hbefore
          have hnil : Text.before '[' (Text.afterLast '@' authority) = [] := by simpa using hbefore
          have hwhole := Text.eq_of_after? hinside
          rw [hnil, List.nil_append] at hwhole
          refine ⟨inside, hwhole, ?_⟩
          cases hclose : Text.after? ']' inside with
          | none => exact .inl (Text.after?_eq_none_iff.mp hclose)
          | some behind =>
            cases behind with
            | nil => exact .inr (.inl rfl)
            | cons c port =>
              rw [hclose] at h
              by_cases hcolon : c = ':'
              · exact .inr (.inr ⟨port, by rw [hcolon]⟩)
              · simp only [hcolon, if_false] at h
                cases h
  · exact .inl hopen

/-- The host that is read is the written one without its brackets, and the port is what is written behind the
colon. -/
structure ReadsParts (authority : List Char) : Prop where
  host : hostPart authority = (hostPort authority).1 ∨ hostPart authority = '[' :: (hostPort authority).1 ∨
    hostPart authority = '[' :: ((hostPort authority).1 ++ [']'])
  port : (portPart authority = [] ∧ (hostPort authority).2 = []) ∨
    portPart authority = ':' :: (hostPort authority).2

/-- Cut at its first colon, a text without an opening bracket is a host and a port. -/
theorem readsParts_of_not_mem (hopen : '[' ∉ Text.afterLast '@' authority) : ReadsParts authority := by
  have hhost : hostPart authority = Text.before ':' (Text.afterLast '@' authority) := by
    rw [hostPart, leadingHost]
    rintro inside hinside
    exact hopen (hinside ▸ List.mem_cons_self)
  have hread : hostPort authority =
      (Text.before ':' (Text.afterLast '@' authority),
        (Text.after? ':' (Text.afterLast '@' authority)).getD []) := by
    simp only [hostPort, Text.after?_eq_none_iff.mpr hopen]
  refine ⟨.inl (by rw [hhost, hread]), ?_⟩
  have hglued := hostPart_append authority
  cases hafter : Text.after? ':' (Text.afterLast '@' authority) with
  | none =>
    rw [hhost, Text.before_of_not_mem (Text.after?_eq_none_iff.mp hafter)] at hglued
    exact .inl ⟨List.append_right_eq_self.mp hglued, by rw [hread, hafter, Option.getD_none]⟩
  | some port =>
    rw [hhost] at hglued
    have hport := List.append_cancel_left (hglued.trans (Text.eq_of_after? hafter))
    exact .inr (by rw [hport, hread, hafter, Option.getD_some])

/-- In brackets, a host ends where they do. -/
theorem readsParts_of_bracket {inside : List Char} (hopen : Text.afterLast '@' authority = '[' :: inside)
    (hclose : ']' ∉ inside ∨ Text.after? ']' inside = some [] ∨
      ∃ port, Text.after? ']' inside = some (':' :: port)) : ReadsParts authority := by
  have hread : hostPort authority =
      (Text.before ']' inside, (Text.after? ':' ((Text.after? ']' inside).getD [])).getD []) := by
    have hinside : Text.after? '[' (Text.afterLast '@' authority) = some inside := by
      rw [hopen, Text.after?, if_pos rfl]
    simp only [hostPort, hinside]
  have hhost : hostPart authority = '[' :: inside.take ((Text.before ']' inside).length + 1) := by
    rw [hostPart, hopen, leadingHost]
  have hglued := hostPart_append authority
  rw [hopen, hhost, List.cons_append, List.cons_inj_right] at hglued
  -- without a closing bracket all that is left is the host
  rcases hclose with hnone | hsome
  · have hwhole := Text.before_of_not_mem hnone
    rw [hwhole, List.take_of_length_le (Nat.le_succ _)] at hglued hhost
    refine ⟨.inr (.inl (by rw [hhost, hread, hwhole])), .inl ⟨List.append_right_eq_self.mp hglued, ?_⟩⟩
    rw [hread, Text.after?_eq_none_iff.mpr hnone]
    rfl
  · obtain ⟨behind, hbehind, hstart⟩ : ∃ behind, Text.after? ']' inside = some behind ∧
        (behind = [] ∨ ∃ port, behind = ':' :: port) := by
      rcases hsome with hnil | ⟨port, hport⟩
      · exact ⟨[], hnil, .inl rfl⟩
      · exact ⟨_, hport, .inr ⟨port, rfl⟩⟩
    have hwhole := Text.eq_of_after? hbehind
    have htake : inside.take ((Text.before ']' inside).length + 1) = Text.before ']' inside ++ [']'] := by
      rw [hwhole, Text.before_glued (Text.not_mem_before ']' inside), List.take_length_add_append]
      rfl
    rw [htake] at hglued hhost
    have hport : portPart authority = behind := by
      refine List.append_cancel_left (hglued.trans ?_)
      rw [List.append_assoc]
      exact hwhole
    refine ⟨.inr (.inr (by rw [hhost, hread])), ?_⟩
    rw [hport, hread, hbehind]
    rcases hstart with rfl | ⟨port, rfl⟩
    · exact .inl ⟨rfl, rfl⟩
    · refine .inr ?_
      rw [Option.getD_some, Text.after?, if_pos rfl, Option.getD_some]

/-! ## An accepted authority -/

/-- An authority in its three parts: a user part up to the last `@`, a host and a port as they are read. -/
structure IsParted (authority : List Char) : Prop extends ReadsParts authority where
  glued : userPart authority ++ (hostPart authority ++ portPart authority) = authority
  user : (userPart authority = [] ∧ '@' ∉ authority) ∨ ∃ name, userPart authority = name ++ ['@']
  userless : '@' ∉ hostPart authority ++ portPart authority

/-- If its brackets match, an authority is made of its parts. -/
theorem isParted (h : bracketsAgree authority = true) : IsParted authority where
  toReadsParts := by
    rcases behind_user_cases h with hopen | ⟨inside, hopen, hclose⟩
    · exact readsParts_of_not_mem hopen
    · exact readsParts_of_bracket hopen hclose
  glued := glued_parts authority
  user := userPart_cases authority
  userless := by
    rw [hostPart_append]
    exact Text.not_mem_afterLast '@' authority

/-- An authority is nothing but a host if it has neither of the other parts. -/
theorem eq_hostPart_iff : authority = hostPart authority ↔ '@' ∉ authority ∧ portPart authority = [] := by
  rw [← userPart_eq_nil]
  have hglued := glued_parts authority
  constructor
  · intro hhost
    have hlength := congrArg List.length hglued
    have hsame := congrArg List.length hhost
    rw [List.length_append, List.length_append] at hlength
    exact ⟨List.eq_nil_of_length_eq_zero (by omega), List.eq_nil_of_length_eq_zero (by omega)⟩
  · rintro ⟨huser, hport⟩
    rw [huser, hport, List.nil_append, List.append_nil] at hglued
    exact hglued.symm

end SchemaCatalog.Uri
