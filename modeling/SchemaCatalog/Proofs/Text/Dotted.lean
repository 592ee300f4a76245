/-
  The small form of a dotted name, and the small forms of its parts.

  The two need not agree.  How a capital sigma is written depends on the letters beside it; a dot is passed over
  in the search for them, but a part ends at its dots.  In `ΑΣ.Β` the sigma stands inside of a word, in the part
  `ΑΣ` it stands at the end of one.  In `Α.Σ` it is the other way round.

  This is the only difference, since nothing else depends on what stands beside it and nothing but a dot becomes
  one.  So the parts of a name in small letters are its parts, each in small letters, exactly if every capital
  sigma is written in its part as it is in the name (`splitDots_lower_iff`).  The induction goes along the name
  and carries what stands before (`front`, nearest first); for the part that is what stands before up to the
  first dot.  Of two such names that are the same up to letter case, the parts are the same up to letter case
  (`map_lower_splitDots_congr`).
-/
import SchemaCatalog.Proofs.Text.Case
import SchemaCatalog.Proofs.Text.Cut
import Mathlib.Data.List.Basic

namespace SchemaCatalog.Text

variable {c : Char} {front s : List Char}

/-! ## Capital sigmas -/

/-- A sigma between these is written in its part as it is in the name. -/
def SigmaAgrees (front back : List Char) : Prop :=
  smallSigma front back = smallSigma (before '.' front) (before '.' back)

/-- All capital sigmas of a text behind another one are written in their parts as they are in the whole. -/
def SigmasAgreeAfter (front s : List Char) : Prop :=
  ∀ t back, s = t ++ 'Σ' :: back → SigmaAgrees (t.reverse ++ front) back

/-- All capital sigmas of a name are written in their parts as they are in the name. -/
def SigmasAgree (name : String) : Prop :=
  ∀ front back, name.toList = front ++ 'Σ' :: back → SigmaAgrees front.reverse back

theorem sigmasAgreeAfter_nil (front : List Char) : SigmasAgreeAfter front [] := by
  intro t back h
  rcases List.append_eq_nil_iff.mp h.symm with ⟨-, h⟩
  cases h

theorem sigmasAgreeAfter_cons :
    SigmasAgreeAfter front (c :: s) ↔ (c = 'Σ' → SigmaAgrees front s) ∧ SigmasAgreeAfter (c :: front) s := by
  constructor
  · intro h
    refine ⟨?_, fun t back hs => ?_⟩
    · rintro rfl
      exact h [] s rfl
    · have hc := h (c :: t) back (by rw [hs, List.cons_append])
      rwa [List.reverse_cons, List.append_assoc, List.singleton_append] at hc
  · rintro ⟨hc, hs⟩ t back heq
    cases t with
    | nil =>
      obtain ⟨rfl, rfl⟩ := List.cons.inj heq
      exact hc rfl
    | cons d t =>
      obtain ⟨rfl, rfl⟩ := List.cons.inj heq
      rw [List.reverse_cons, List.append_assoc, List.singleton_append]
      exact hs t back rfl

/-- A name without a capital sigma has none to disagree. -/
theorem sigmasAgree_of_not_mem {name : String} (h : 'Σ' ∉ name.toList) : SigmasAgree name := by
  intro front back hname
  refine absurd ?_ h
  rw [hname]
  exact List.mem_append_right front List.mem_cons_self

/-! ## Dots -/

/-- Only a dot becomes a dot. -/
theorem dot_not_mem_smallOf (h : c ≠ '.') : '.' ∉ smallOf c := by
  intro hmem
  rcases smallOf_cases c with halone | hsmall
  · rw [halone, List.mem_singleton] at hmem
    exact h hmem.symm
  · exact absurd ((hsmall '.' hmem).isLower_of_ascii (by decide)) (by decide)

theorem smallSigma_ne_dot (front back : List Char) : smallSigma front back ≠ '.' := by
  rw [smallSigma]
  split <;> decide

/-! ## The small forms of the parts -/

/-- The pieces of a text between its dots, each in small letters, the first one behind what stands before it. -/
def smallPieces (front s : List Char) : List (List Char) :=
  match pieces '.' s with
  | [] => []
  | p :: ps => smallAfter front p :: ps.map (smallAfter [])

theorem smallPieces_nil (s : List Char) : smallPieces [] s = (pieces '.' s).map (smallAfter []) := by
  rw [smallPieces]
  cases pieces '.' s <;> rfl

theorem smallPieces_ne_nil (front s : List Char) : smallPieces front s ≠ [] := by
  obtain ⟨ps, hps⟩ := exists_pieces '.' s
  rw [smallPieces, hps]
  exact List.cons_ne_nil _ _

/-- Behind a dot a piece begins. -/
theorem smallPieces_cons_dot (front s : List Char) : smallPieces front ('.' :: s) = [] :: smallPieces [] s := by
  rw [smallPieces_nil, smallPieces, pieces_cons_mark]
  rfl

/-- Of what stands behind a sigma, its piece ends at the first dot. -/
theorem smallPieces_cons_of_ne (h : c ≠ '.') (front s : List Char) :
    smallPieces front (c :: s) = (smallPieces (c :: front) s).modifyHead
      ((if c = 'Σ' then [smallSigma front (before '.' s)] else smallOf c) ++ ·) := by
  obtain ⟨ps, hps⟩ := exists_pieces '.' s
  rw [smallPieces, smallPieces, pieces_cons_of_ne h, hps]
  rfl

/-- Texts of one length in front of first pieces can be told apart from these. -/
theorem modifyHead_append_inj {x y : List Char} {l m : List (List Char)} (hlength : x.length = y.length)
    (hl : l ≠ []) (hm : m ≠ []) : l.modifyHead (x ++ ·) = m.modifyHead (y ++ ·) ↔ x = y ∧ l = m := by
  obtain ⟨p, ps, rfl⟩ := List.exists_cons_of_ne_nil hl
  obtain ⟨q, qs, rfl⟩ := List.exists_cons_of_ne_nil hm
  rw [List.modifyHead_cons, List.modifyHead_cons, List.cons.injEq, List.cons.injEq]
  constructor
  · rintro ⟨hhead, htail⟩
    obtain ⟨hxy, hpq⟩ := List.append_inj hhead hlength
    exact ⟨hxy, hpq, htail⟩
  · rintro ⟨rfl, rfl, rfl⟩
    exact ⟨rfl, rfl⟩

/-- The pieces of the small form are the small forms of the pieces exactly if all sigmas agree. -/
theorem pieces_smallAfter_iff (front s : List Char) :
    pieces '.' (smallAfter front s) = smallPieces (before '.' front) s ↔ SigmasAgreeAfter front s := by
  induction s generalizing front with
  | nil => exact ⟨fun _ => sigmasAgreeAfter_nil front, fun _ => rfl⟩
  | cons c s ih =>
    rw [sigmasAgreeAfter_cons, ← ih (c :: front), smallAfter]
    by_cases hdot : c = '.'
    · subst hdot
      have hstays : smallOf '.' = ['.'] := rfl
      have hsigma : '.' ≠ 'Σ' := by decide
      rw [if_neg hsigma, hstays, List.singleton_append, pieces_cons_mark, smallPieces_cons_dot, before_cons_mark,
        List.cons.injEq]
      exact ⟨fun h => ⟨fun hc => absurd hc hsigma, h.2⟩, fun h => ⟨rfl, h.2⟩⟩
    · have hfirst : '.' ∉ (if c = 'Σ' then [smallSigma front s] else smallOf c) := by
        split
        · exact fun hmem => smallSigma_ne_dot front s (List.mem_singleton.mp hmem).symm
        · exact dot_not_mem_smallOf hdot
      rw [pieces_append_of_not_mem hfirst, smallPieces_cons_of_ne hdot, before_cons_of_ne hdot,
        modifyHead_append_inj (by split <;> rfl) (pieces_ne_nil _ _) (smallPieces_ne_nil _ _)]
      refine and_congr_left fun _ => ?_
      by_cases hsigma : c = 'Σ'
      · rw [if_pos hsigma, if_pos hsigma, List.singleton_inj]
        exact ⟨fun h _ => h, fun h => h hsigma⟩
      · rw [if_neg hsigma, if_neg hsigma]
        exact ⟨fun _ hc => absurd hc hsigma, fun _ => rfl⟩

/-! ## Names -/

/-- The parts of a name in small letters are its parts in small letters exactly if every capital sigma is
written in its part as it is in the name. -/
theorem splitDots_lower_iff (name : String) :
    splitDots (lower name) = (splitDots name).map lower ↔ SigmasAgree name := by
  have hinjective : Function.Injective (List.map String.ofList) :=
    List.map_injective_iff.mpr fun _ _ => String.ofList_injective
  have hparts : (splitDots name).map lower = (smallPieces [] name.toList).map String.ofList := by
    rw [splitDots, smallPieces_nil, List.map_map, List.map_map]
    refine List.map_congr_left fun p _ => ?_
    show String.ofList (smallAfter [] (String.ofList p).toList) = String.ofList (smallAfter [] p)
    rw [String.toList_ofList]
  rw [hparts, splitDots, lower, String.toList_ofList, hinjective.eq_iff]
  refine (pieces_smallAfter_iff [] name.toList).trans ?_
  simp only [SigmasAgreeAfter, SigmasAgree, List.append_nil]

/-- Names that are the same up to letter case have parts that are so, if their capital sigmas agree. -/
theorem map_lower_splitDots_congr {p q : String} (h : lower p = lower q) (hp : SigmasAgree p)
    (hq : SigmasAgree q) :
    (splitDots p).map lower = (splitDots q).map lower := by
  rw [← (splitDots_lower_iff p).mpr hp, ← (splitDots_lower_iff q).mpr hq, h]

end SchemaCatalog.Text
