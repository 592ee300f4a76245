/-
  The namespaces that are listed, and those below one.

  Namespaces lie in each other by their names alone: `a.b` lies below `a`, whether or not there is a group `a`.
  All of them are the names of the groups, taken apart at their dots, which loses nothing; so the list is the
  registry's (`listNamespaces_gives`).

    - Those below a namespace have one part more than it, and the same parts before, letter case aside; they are
      listed in the order of the groups and each once.
    - Whether a namespace is there is asked for its whole name, letter case aside.  Which ones lie below it is
      asked part by part.  The two are not the same question if there is a sigma in the name
      (`Text.SigmasAgree`), so two names of one namespace can have different lists.
-/
import SchemaCatalog.Proofs.Catalog.Effects
import SchemaCatalog.Proofs.Text.Dotted
import Mathlib.Data.List.Nodup

namespace SchemaCatalog.Catalog

open Text (splitDots joinDots lower sameName)

/-! ## What lies below a namespace -/

/-- The parts are one more than those of the parent, which come first, each of them in some letter case. -/
def LiesBelow (parent ns : List String) : Prop :=
  ∃ front last, ns = front ++ [last] ∧ front.map lower = parent.map lower

theorem isChild_iff {parent ns : List String} : isChild parent ns = true ↔ LiesBelow parent ns := by
  rw [isChild, Bool.and_eq_true, beq_iff_eq, beq_iff_eq]
  constructor
  · rintro ⟨hlength, hparts⟩
    have hne : ns ≠ [] := List.ne_nil_of_length_eq_add_one hlength
    refine ⟨ns.dropLast, ns.getLast hne, (List.dropLast_append_getLast hne).symm, ?_⟩
    rwa [List.dropLast_eq_take, hlength, Nat.add_sub_cancel]
  · rintro ⟨front, last, rfl, hparts⟩
    have hlength : front.length = parent.length := by
      rw [← List.length_map (f := lower), hparts, List.length_map]
    rw [List.length_append, List.length_singleton, hlength]
    refine ⟨rfl, ?_⟩
    rw [← hlength, List.take_left, hparts]

/-- What lies below two namespaces makes their parts the same, letter case aside. -/
theorem LiesBelow.unique {parent parent' ns : List String} (h : LiesBelow parent ns) (h' : LiesBelow parent' ns) :
    parent.map lower = parent'.map lower := by
  obtain ⟨front, last, rfl, hparts⟩ := h
  obtain ⟨front', last', heq, hparts'⟩ := h'
  obtain ⟨rfl, -⟩ := List.append_inj' heq rfl
  exact hparts.symm.trans hparts'

/-! ## What is listed -/

variable (c : Catalog)

/-- The namespaces of a registry that are listed below one. -/
def children (r : Registry) (parent : List String) : List (List String) :=
  ((r.groups.map Group.name).map splitDots).filter (isChild parent)

/-- Without a name all namespaces are listed. -/
theorem listNamespaces_all_gives (r : Registry) :
    (c.listNamespaces (.parts [])).Gives r (.ok ((r.groups.map Group.name).map splitDots)) r :=
  Attempt.Gives.bind (Namespaces.names_gives c.endpoint r) (.pure _ r)

/-- Below a name those namespaces are listed that lie below its parts, if the name is there in some letter case. -/
theorem listNamespaces_gives (n : String) (r : Registry) :
    (c.listNamespaces (.name n)).Gives r
      (if (r.groups.map Group.name).any fun g => sameName g n then .ok (children r (splitDots n))
        else .error (.noNamespace n)) r := by
  have hparts : (splitDots n).isEmpty = false := by
    rw [List.isEmpty_eq_false_iff, splitDots, ne_eq, List.map_eq_nil_iff]
    exact Text.pieces_ne_nil '.' n.toList
  have hsteps : c.listNamespaces (.name n) = do
      c.requireNamespace (.name n)
      let names ← Namespaces.names c.endpoint
      return (names.map splitDots).filter (isChild (splitDots n)) := by
    simp only [listNamespaces, Identifier.toParts, hparts, Bool.not_false, if_true, Bool.false_eq_true, if_false]
  have hrequire := c.requireNamespace_gives n r
  rw [hsteps]
  split at hrequire
  · rename_i hthere
    rw [if_pos hthere]
    exact Attempt.Gives.bind hrequire (Attempt.Gives.bind (Namespaces.names_gives c.endpoint r) (.pure _ r))
  · rename_i hthere
    rw [if_neg hthere]
    exact Attempt.Gives.bind_error hrequire

theorem any_sameName_of_mem {r : Registry} {n : String} (h : n ∈ r.groups.map Group.name) :
    ((r.groups.map Group.name).any fun g => sameName g n) = true :=
  List.any_eq_true.mpr ⟨n, h, Text.sameName_self n⟩

/-- Every namespace is there, by its parts and by its dotted name. -/
theorem hasNamespace_of_mem {s : Server} (hs : s.Healthy) {ns : List String}
    (h : ns ∈ (s.registry.groups.map Group.name).map splitDots) :
    ((c.hasNamespace (.parts ns)).run.run Server.answer s).result = .ok true ∧
      ((c.hasNamespace (.name (joinDots ns))).run.run Server.answer s).result = .ok true := by
  obtain ⟨n, hn, rfl⟩ := List.mem_map.mp h
  have hthere := ((Namespaces.has_gives c.endpoint n s.registry).run hs rfl).1
  rw [any_sameName_of_mem hn] at hthere
  have hboth : ∀ i : Identifier, i.toText = n →
    ((c.hasNamespace i).run.run Server.answer s).result = .ok true := by
    rintro i rfl
    exact hthere
  exact ⟨hboth _ (Text.joinDots_splitDots n), hboth _ (Text.joinDots_splitDots n)⟩

/-- **The list of the namespaces is that of the groups.**  Without a name the names of all groups are listed in
their order, taken apart; putting the parts together gives the names back.  Under the name of a group exactly
those namespaces are listed that lie below it, in the order of the groups and each once.  All that is listed is
there, by its parts and by its dotted name. -/
theorem listNamespaces_of_distinct {s : Server} (hs : s.Healthy)
    (hdistinct : (s.registry.groups.map Group.name).Nodup) :
    let names := s.registry.groups.map Group.name
    let listed (ns : Identifier) := (c.listNamespaces ns).run.run Server.answer s
    let isThere (s : Server) (ns : Identifier) := ((c.hasNamespace ns).run.run Server.answer s).result = .ok true
    ((listed (.parts [])).result = .ok (names.map splitDots) ∧ (names.map splitDots).map joinDots = names ∧
      ∀ ns ∈ names.map splitDots, isThere (listed (.parts [])).state (.parts ns) ∧
        isThere (listed (.parts [])).state (.name (joinDots ns))) ∧
    ∀ p ∈ names, ∃ below, (listed (.name p)).result = .ok below ∧
      below.Sublist (names.map splitDots) ∧ below.Nodup ∧
      (∀ ns, ns ∈ below ↔ ns ∈ names.map splitDots ∧ LiesBelow (splitDots p) ns) ∧
      ∀ ns ∈ below, isThere (listed (.name p)).state (.parts ns) ∧
        isThere (listed (.name p)).state (.name (joinDots ns)) := by
  intro names listed isThere
  have hnodup : (names.map splitDots).Nodup := hdistinct.map Text.splitDots_injective
  refine ⟨?_, fun p hp => ?_⟩
  · obtain ⟨hresult, hs', hr'⟩ := (c.listNamespaces_all_gives s.registry).run hs rfl
    refine ⟨hresult, ?_, fun ns hns => c.hasNamespace_of_mem hs' (hr' ▸ hns)⟩
    rw [List.map_map]
    exact (List.map_congr_left fun n _ => Text.joinDots_splitDots n).trans (List.map_id names)
  · have hgives := c.listNamespaces_gives p s.registry
    rw [if_pos (any_sameName_of_mem hp)] at hgives
    obtain ⟨hresult, hs', hr'⟩ := hgives.run hs rfl
    have hsub : (children s.registry (splitDots p)).Sublist (names.map splitDots) := List.filter_sublist
    refine ⟨_, hresult, hsub, hsub.nodup hnodup, fun ns => ?_, fun ns hns => ?_⟩
    · rw [children, List.mem_filter, isChild_iff]
    · exact c.hasNamespace_of_mem hs' (hr' ▸ hsub.subset hns)

/-- The names are those of groups in which two share nothing but the beginning of a part. -/
theorem listNamespaces_of_distinct_siblings :
    ∃ (c : Catalog) (s : Server), s.Healthy ∧ (s.registry.groups.map Group.name).Nodup ∧
      ∃ below, ((c.listNamespaces (.name "a")).run.run Server.answer s).result = .ok below ∧
        ["A", "", ""] ∉ below ∧ ["A", ""] ∈ below ∧ ["ab", "c"] ∉ below := by
  let named (n : String) : Group := ⟨n, .ofOwner .null, []⟩
  let r : Registry := ⟨[named "ab.c", named "A.", named "a", named "A.."], 0⟩
  let c : Catalog := ⟨⟨.text "localhost", 9092, .text "default"⟩⟩
  let s : Server := { Server.start true with registry := r }
  have hs : s.Healthy := ⟨rfl, rfl⟩
  have hdistinct : (s.registry.groups.map Group.name).Nodup := by decide
  obtain ⟨-, hbelow⟩ := c.listNamespaces_of_distinct hs hdistinct
  obtain ⟨below, hresult, -, -, hmem, -⟩ := hbelow "a" (by decide)
  refine ⟨c, s, hs, hdistinct, below, hresult, ?_, ?_, ?_⟩
  · rw [hmem, ← isChild_iff]
    decide
  · rw [hmem, ← isChild_iff]
    decide
  · rw [hmem, ← isChild_iff]
    decide

/-! ## Two spellings of a name -/

/-- What lies below a namespace is told by its parts in small letters. -/
theorem children_congr {parent parent' : List String} (h : parent.map lower = parent'.map lower) (r : Registry) :
    children r parent = children r parent' := by
  refine List.filter_congr fun ns _ => ?_
  rw [Bool.eq_iff_iff, isChild_iff, isChild_iff, LiesBelow, LiesBelow, h]

/-- Otherwise nothing is listed below both. -/
theorem children_eq_iff {parent parent' : List String} {r : Registry} :
    children r parent = children r parent' ↔
      parent.map lower = parent'.map lower ∨ children r parent = [] ∧ children r parent' = [] := by
  constructor
  · intro h
    cases hchildren : children r parent with
    | nil => exact .inr ⟨rfl, h ▸ hchildren⟩
    | cons ns rest =>
      have hmem : ns ∈ children r parent := by
        rw [hchildren]
        exact List.mem_cons_self
      have hbelow := isChild_iff.mp (List.mem_filter.mp hmem).2
      have hbelow' := isChild_iff.mp (List.mem_filter.mp (h ▸ hmem)).2
      exact .inl (hbelow.unique hbelow')
  · rintro (h | ⟨h, h'⟩)
    · exact children_congr h r
    · rw [h, h']

/-- **Two spellings of a namespace.**  Either neither is there, and both are refused; or both are listed, and
then the lists are the same exactly if the names have the same parts, letter case aside, or nothing lies below
either.  They are the same if every capital sigma of the names is written in its part as it is in the name; so
if there is none. -/
theorem listNamespaces_of_sameName {p q : String} (hsame : sameName p q = true) {s : Server} (hs : s.Healthy) :
    let listed (n : String) := ((c.listNamespaces (.name n)).run.run Server.answer s).result
    ((∀ g ∈ s.registry.groups, sameName g.name p = false) →
      listed p = .error (.noNamespace p) ∧ listed q = .error (.noNamespace q)) ∧
    ((∃ g ∈ s.registry.groups, sameName g.name p = true) →
      ∃ ps qs, listed p = .ok ps ∧ listed q = .ok qs ∧
        (ps = qs ↔ (splitDots p).map lower = (splitDots q).map lower ∨ ps = [] ∧ qs = []) ∧
        (Text.SigmasAgree p → Text.SigmasAgree q → ps = qs)) := by
  intro listed
  have hlower : lower p = lower q := beq_iff_eq.mp hsame
  have hp := ((c.listNamespaces_gives p s.registry).run hs rfl).1
  have hq := ((c.listNamespaces_gives q s.registry).run hs rfl).1
  have hany : ((s.registry.groups.map Group.name).any fun g => sameName g q) =
      s.registry.groups.any fun g => sameName g.name p := by
    rw [List.any_map]
    simp only [sameName, hlower]
    rfl
  rw [List.any_map] at hp
  rw [hany] at hq
  refine ⟨fun hnone => ?_, fun ⟨g, hg, hsome⟩ => ?_⟩
  · have hnot : ¬(s.registry.groups.any fun g => sameName g.name p) = true := by
      rw [List.any_eq_true]
      rintro ⟨g, hg, hsome⟩
      rw [hnone g hg] at hsome
      cases hsome
    exact ⟨hp.trans (if_neg hnot), hq.trans (if_neg hnot)⟩
  · have hthere : (s.registry.groups.any fun g => sameName g.name p) = true := List.any_eq_true.mpr ⟨g, hg, hsome⟩
    refine ⟨_, _, hp.trans (if_pos hthere), hq.trans (if_pos hthere), children_eq_iff, fun hsp hsq => ?_⟩
    exact children_congr (Text.map_lower_splitDots_congr hlower hsp hsq) s.registry

/-- The sigma at the end of `ΟΔΟΣ` is final in the name and in its part. -/
theorem listNamespaces_of_sameName_final :
    ∃ (c : Catalog) (s : Server), sameName "ΟΔΟΣ" "οδος" = true ∧ s.Healthy ∧
      ∃ ns, ((c.listNamespaces (.name "ΟΔΟΣ")).run.run Server.answer s).result = .ok ns ∧
        ((c.listNamespaces (.name "οδος")).run.run Server.answer s).result = .ok ns := by
  let r : Registry := ⟨[⟨"οδος", .ofOwner .null, []⟩, ⟨"Οδος.α", .ofOwner .null, []⟩], 0⟩
  let c : Catalog := ⟨⟨.text "localhost", 9092, .text "default"⟩⟩
  let s : Server := { Server.start true with registry := r }
  have hs : s.Healthy := ⟨rfl, rfl⟩
  have hsame : sameName "ΟΔΟΣ" "οδος" = true := by decide +kernel
  have hsmall : sameName "οδος" "ΟΔΟΣ" = true := by decide +kernel
  obtain ⟨ps, qs, hps, hqs, -, heq⟩ := (c.listNamespaces_of_sameName hsame hs).2 ⟨_, List.mem_cons_self, hsmall⟩
  have hsigma : Text.SigmasAgree "ΟΔΟΣ" := (Text.splitDots_lower_iff _).mp (by decide +kernel)
  obtain rfl := heq hsigma (Text.sigmasAgree_of_not_mem (by decide))
  exact ⟨c, s, hsame, hs, ps, hps, hqs⟩

/-- Two spellings of a namespace need not have the same list: the sigma of `ΑΣ.Β` is not final in the name, but
in its part, and so nothing lies below it; below `ασ.β` something does. -/
theorem not_listed_under_every_spelling :
    ¬∀ (c : Catalog) (p q : String) (s : Server), p ≠ "" → q ≠ "" → sameName p q = true → s.Healthy →
      let listed (n : String) := ((c.listNamespaces (.name n)).run.run Server.answer s).result
      (∃ ns, listed p = .ok ns ∧ listed q = .ok ns) ∨
        listed p = .error (.noNamespace p) ∧ listed q = .error (.noNamespace q) := by
  intro hlists
  let r : Registry := ⟨[⟨"ασ.β", .ofOwner .null, []⟩, ⟨"ασ.β.γ", .ofOwner .null, []⟩], 0⟩
  let c : Catalog := ⟨⟨.text "localhost", 9092, .text "default"⟩⟩
  let s : Server := { Server.start true with registry := r }
  have hp : ((c.listNamespaces (.name "ΑΣ.Β")).run.run Server.answer s).result = .ok [] :=
    eq_ok_of_toOption (by decide +kernel)
  have hq : ((c.listNamespaces (.name "ασ.β")).run.run Server.answer s).result = .ok [["ασ", "β", "γ"]] :=
    eq_ok_of_toOption (by decide +kernel)
  rcases hlists c "ΑΣ.Β" "ασ.β" s (by decide) (by decide) (by decide +kernel) ⟨rfl, rfl⟩ with
    ⟨ns, hns, hns'⟩ | ⟨herror, -⟩
  · cases hp.symm.trans hns
    cases hq.symm.trans hns'
  · cases hp.symm.trans herror

end SchemaCatalog.Catalog
