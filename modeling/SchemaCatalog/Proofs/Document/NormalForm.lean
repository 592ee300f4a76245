/-
  What the normal form of table properties is, and what it does not depend on.

  `IsNormalForm` says of a table, entry by entry, that it is the normal form of some properties: it has the
  recognized names in small letters, in the order in which the properties first have them, and under each the last
  value given under it.  `Options.normalize` finds such a table for all properties (`exists_normalize`).

  Two facts carry the rest.  A table like that is in normal form already, so normalizing it once more changes
  nothing (`normalize_of_normal`).  And it is made of nothing but the values `given` under the recognized names.
  Entries that do not matter, the spelling of names and the order of entries with different names do not touch
  these (`given_eq_of_alters`), so after any number of such changes the normal form has the same members,
  although they may stand elsewhere.

  A table of properties is here any list of entries whose names are texts.  Nothing depends on a spelling being
  there only once, so an alteration may also make two spellings one.
-/
import SchemaCatalog.Proofs.Document.Options
import Mathlib.Data.List.Nodup
import Mathlib.Logic.Relation

namespace SchemaCatalog

namespace Options

open Members (named keys_named)

/-! ## Normal forms, entry by entry -/

/-- The values given under a name in whatever letter case, in order. -/
def given (name : String) (ps : List (String × Value)) : List Value :=
  (ps.filter fun p => Text.lower p.1 == name).map Prod.snd

/-- One table is the normal form of another: it has the recognized names in small letters, each once and in the
order of their first entries, and each with the value of its last entry, booleans as words. -/
structure IsNormalForm (ps kept : List (String × Value)) : Prop where
  places : kept.map Prod.fst = ((ps.map fun p => Text.lower p.1).filter names.contains).eraseDups
  values {name : String} {v : Value} : (name, v) ∈ kept → (given name ps).getLast?.map spelled = some v

theorem given_append (name : String) (ps qs : List (String × Value)) :
    given name (ps ++ qs) = given name ps ++ given name qs := by
  simp only [given, List.filter_append, List.map_append]

theorem given_cons (name : String) (p : String × Value) (ps : List (String × Value)) :
    given name (p :: ps) = (if Text.lower p.1 = name then [p.2] else []) ++ given name ps := by
  by_cases h : Text.lower p.1 = name
  · simp [given, h]
  · simp [given, h]

/-- Something is given under a name exactly if some entry has it. -/
theorem given_ne_nil {name : String} {ps : List (String × Value)} :
    given name ps ≠ [] ↔ name ∈ ps.map fun p => Text.lower p.1 := by
  simp [given, List.filter_eq_nil_iff]

/-- In effect is the last of the values given. -/
theorem effective?_named (name : String) (ps : List (String × Value)) :
    effective? name (named ps) = (given name ps).getLast?.map spelled := by
  simp [effective?, lowered_named, lastUnder, given, List.filter_map, List.getLast?_map, Function.comp_def]

/-! ## Every table of properties has a normal form -/

theorem isNormalForm_latest (ps : List (String × Value)) : IsNormalForm ps (latest (recognized (named ps))) where
  places := by
    rw [map_fst_latest, recognized, lowered_named, List.filter_map, List.map_map, List.filter_map]
    rfl
  values := by
    intro name v hp
    have hlast := mem_latest.mp hp
    have hname := (List.mem_filter.mp (lastUnder_mem hlast)).2
    rw [← effective?_named, ← lastUnder_recognized (List.contains_iff_mem.mp hname), hlast]

theorem exists_normalize (ps : List (String × Value)) :
    ∃ kept, normalize (named ps) = .ok (named kept) ∧ IsNormalForm ps kept :=
  ⟨_, normalize_eq (keys_named ps), isNormalForm_latest ps⟩

namespace IsNormalForm

variable {ps qs kept kept' : List (String × Value)}

theorem nodup (h : IsNormalForm ps kept) : (kept.map Prod.fst).Nodup := by
  rw [h.places]
  exact nodup_eraseDups _

theorem mem_names (h : IsNormalForm ps kept) {p : String × Value} (hp : p ∈ kept) : p.1 ∈ names := by
  have hmem := List.mem_map_of_mem (f := Prod.fst) hp
  rw [h.places, List.mem_eraseDups, List.mem_filter] at hmem
  exact List.contains_iff_mem.mp hmem.2

/-- The members are the recognized names under which something is given, with the last of it. -/
theorem mem_iff (h : IsNormalForm ps kept) {name : String} {v : Value} :
    (name, v) ∈ kept ↔ name ∈ names ∧ (given name ps).getLast?.map spelled = some v := by
  constructor
  · intro hp
    exact ⟨h.mem_names hp, h.values hp⟩
  · rintro ⟨hname, hv⟩
    have hgiven : given name ps ≠ [] := by
      intro hnil
      rw [hnil] at hv
      cases hv
    have hplace : name ∈ kept.map Prod.fst := by
      rw [h.places, List.mem_eraseDups, List.mem_filter]
      exact ⟨given_ne_nil.mp hgiven, List.contains_iff_mem.mpr hname⟩
    obtain ⟨⟨n, w⟩, hw, rfl⟩ := List.mem_map.mp hplace
    obtain rfl : w = v := Option.some.inj ((h.values hw).symm.trans hv)
    exact hw

/-- What is given under the recognized names decides on the members. -/
theorem perm (h : IsNormalForm ps kept) (h' : IsNormalForm qs kept')
    (hgiven : ∀ name ∈ names, given name ps = given name qs) : kept.Perm kept' := by
  refine (List.perm_ext_iff_of_nodup (List.Nodup.of_map _ h.nodup) (List.Nodup.of_map _ h'.nodup)).mpr ?_
  rintro ⟨name, v⟩
  rw [h.mem_iff, h'.mem_iff]
  refine and_congr_right fun hname => ?_
  rw [hgiven name hname]

end IsNormalForm

/-! ## Normalizing once more -/

/-- A table with recognized names, each once, and without booleans stays as it is. -/
theorem normalize_of_normal {kept : List (String × Value)} (hd : (kept.map Prod.fst).Nodup)
    (h : ∀ p ∈ kept, p.1 ∈ names ∧ spelled p.2 = p.2) : normalize (named kept) = .ok (named kept) := by
  have hlowered : lowered (named kept) = kept := by
    rw [lowered_of_mem_names fun p hp => (h p hp).1]
    refine (List.map_congr_left fun p hp => ?_).trans (List.map_id kept)
    rw [(h p hp).2, id]
  have hrecognized : recognized (named kept) = kept := by
    rw [recognized, hlowered, List.filter_eq_self]
    exact fun p hp => List.contains_iff_mem.mpr (h p hp).1
  rw [normalize_eq (keys_named kept), hrecognized, latest_of_nodup hd]

theorem IsNormalForm.normalize_eq_self {ps kept : List (String × Value)} (h : IsNormalForm ps kept) :
    normalize (named kept) = .ok (named kept) := by
  refine normalize_of_normal h.nodup fun p hp => ⟨h.mem_names hp, ?_⟩
  obtain ⟨w, -, hw⟩ := Option.map_eq_some_iff.mp (h.values hp)
  rw [← hw, spelled_spelled]

/-! ## Alterations that do not matter -/

/-- One alteration of properties that does not matter to their normal form, but perhaps to the order in it. -/
inductive Alters : List (String × Value) → List (String × Value) → Prop where
  /-- An entry that is not recognized is taken out. -/
  | takeOut (before after : List (String × Value)) (p : String × Value) (strange : Text.lower p.1 ∉ names) :
      Alters (before ++ p :: after) (before ++ after)
  /-- A name is spelled in another way. -/
  | respell (before after : List (String × Value)) (k k' : String) (v : Value)
      (same : Text.lower k = Text.lower k') :
      Alters (before ++ (k, v) :: after) (before ++ (k', v) :: after)
  /-- Two neighbours with different names change places. -/
  | swap (before after : List (String × Value)) (p q : String × Value) (differ : Text.lower p.1 ≠ Text.lower q.1) :
      Alters (before ++ p :: q :: after) (before ++ q :: p :: after)

/-- An alteration leaves what is given under the recognized names. -/
theorem given_eq_of_alters {ps qs : List (String × Value)} (h : Alters ps qs) {name : String}
    (hname : name ∈ names) :
    given name ps = given name qs := by
  cases h with
  | takeOut before after p strange =>
    have hp : Text.lower p.1 ≠ name := fun hp => strange (hp ▸ hname)
    rw [given_append, given_append, given_cons, if_neg hp, List.nil_append]
  | respell before after k k' v same =>
    rw [given_append, given_append, given_cons, given_cons, same]
  | swap before after p q differ =>
    simp only [given_append, given_cons]
    refine congrArg (given name before ++ ·) ?_
    -- at most one of the two has the name, and what the other one gives under it is nothing
    by_cases hp : Text.lower p.1 = name
    · have hq : Text.lower q.1 ≠ name := fun hq => differ (hp.trans hq.symm)
      rw [if_pos hp, if_neg hq, List.nil_append, List.nil_append]
    · rw [if_neg hp, List.nil_append, List.nil_append]

/-- So do any number of them, there and back. -/
theorem given_eq_of_altered {ps qs : List (String × Value)} (h : Relation.EqvGen Alters ps qs) {name : String}
    (hname : name ∈ names) : given name ps = given name qs := by
  induction h with
  | rel _ _ h => exact given_eq_of_alters h hname
  | refl _ => rfl
  | symm _ _ _ ih => exact ih.symm
  | trans _ _ _ _ _ ih ih' => exact ih.trans ih'

/-! ## The normal form -/

/-- **The normal form of properties.**  All properties have one: the recognized names in small letters, in the
order of their first entries and with the values of their last ones.  It is its own normal form, and properties
that differ in nothing but entries that are not recognized, spellings of names and the order of entries with
different names have normal forms with the same members, so they are one and the same mapping. -/
theorem normalize_normalForm (ps : List (String × Value)) :
    ∃ kept, normalize (named ps) = .ok (named kept) ∧ IsNormalForm ps kept ∧
      normalize (named kept) = .ok (named kept) ∧
      ∀ qs, Relation.EqvGen Alters ps qs →
        ∃ kept', normalize (named qs) = .ok (named kept') ∧ kept'.Perm kept := by
  obtain ⟨kept, hkept, hform⟩ := exists_normalize ps
  refine ⟨kept, hkept, hform, hform.normalize_eq_self, fun qs haltered => ?_⟩
  obtain ⟨kept', hkept', hform'⟩ := exists_normalize qs
  refine ⟨kept', hkept', hform'.perm hform fun name hname => ?_⟩
  exact (given_eq_of_altered haltered hname).symm

/-- Of two spellings of a name the first has the place and the second the value; with one entry taken out, one
moved and one respelled, the same two properties stand the other way round. -/
theorem normalize_normalForm_spellings :
    let ps : List (String × Value) :=
      [("Format", .text "csv"), ("comment", .text "new"), ("HAS_HEADER_ROW", .bool true), ("FORMAT", .text "json")]
    let qs : List (String × Value) :=
      [("HAS_HEADER_ROW", .bool true), ("format", .text "csv"), ("FORMAT", .text "json")]
    Relation.EqvGen Alters ps qs ∧
      ∃ kept kept', normalize (named ps) = .ok (named kept) ∧ normalize (named kept) = .ok (named kept) ∧
        kept.map Prod.fst = ["format", "has_header_row"] ∧
        ("format", .text "json") ∈ kept ∧ ("has_header_row", .text "true") ∈ kept ∧
        normalize (named qs) = .ok (named kept') ∧ kept'.Perm kept := by
  intro ps qs
  obtain ⟨hformat, hcomment, hheader, hformat'⟩ : Text.lower "Format" = "format" ∧
      Text.lower "comment" = "comment" ∧ Text.lower "HAS_HEADER_ROW" = "has_header_row" ∧
      Text.lower "FORMAT" = "format" := by decide +kernel
  have haltered : Relation.EqvGen Alters ps qs :=
    .trans _ _ _ (.rel _ _ (.takeOut [_] [_, _] _ (by simp [hcomment, names]))) <|
      .trans _ _ _ (.rel _ _ (.swap [] [_] _ _ (by simp [hformat, hheader]))) <|
        .rel _ _ (.respell [_] [_] "Format" "format" _ (by rw [hformat, lower_of_mem_names (by decide)]))
  obtain ⟨kept, hkept, hform, hagain, hsame⟩ := normalize_normalForm ps
  obtain ⟨kept', hkept', hperm⟩ := hsame qs haltered
  refine ⟨haltered, kept, kept', hkept, hagain, ?_, ?_, ?_, hkept', hperm⟩
  · rw [hform.places]
    simp [ps, hformat, hcomment, hheader, hformat', names, List.eraseDups_cons]
  · exact hform.mem_iff.mpr ⟨by decide, by simp [given, ps, hformat, hcomment, hheader, hformat', spelled]⟩
  · exact hform.mem_iff.mpr ⟨by decide, by simp [given, ps, hformat, hcomment, hheader, hformat', spelled]⟩

end Options

end SchemaCatalog
