/-
  The normal form of table properties, said without writing anything.

  `Options.normalize` writes one property after the other into a table.  Its result is the table of the
  recognized properties, their names in small letters, each at its first place and with its last value;
  so what is found in it under a name is the last property that has this name in small letters.
-/
import SchemaCatalog.Document.Options
import SchemaCatalog.Proofs.Value.Latest

namespace SchemaCatalog

/-- A format is found by a name exactly if it is that name in small letters. -/
theorem FileFormat.ofName?_eq_some {s : String} {f : FileFormat} : ofName? s = some f ↔ Text.lower s = f.name := by
  constructor
  · intro h
    have hfound := List.find?_some h
    exact beq_iff_eq.mp hfound
  · intro h
    rw [ofName?, h]
    cases f <;> rfl

namespace Options

/-- The names of the properties are in small letters. -/
theorem lower_of_mem_names {name : String} (h : name ∈ names) : Text.lower name = name := by
  have hall : ∀ name ∈ names, Text.lower name = name := by decide +kernel
  exact hall name h

/-- A value that is spelled out stays as it is. -/
theorem spelled_spelled (v : Value) : spelled (spelled v) = spelled v := by
  cases v <;> rfl

/-- The properties that have texts as names, the names in small letters and booleans as words. -/
def lowered (properties : Members) : List (String × Value) :=
  properties.filterMap fun p => p.1.text?.map fun k => (Text.lower k, spelled p.2)

theorem lowered_named (ps : List (String × Value)) :
    lowered (Members.named ps) = ps.map fun p => (Text.lower p.1, spelled p.2) := by
  rw [lowered, Members.named, List.filterMap_map, ← List.filterMap_eq_map]
  rfl

/-- Names of properties are in small letters already. -/
theorem lowered_of_mem_names {ps : List (String × Value)} (h : ∀ p ∈ ps, p.1 ∈ names) :
    lowered (Members.named ps) = ps.map fun p => (p.1, spelled p.2) := by
  rw [lowered_named]
  refine List.map_congr_left fun p hp => ?_
  rw [lower_of_mem_names (h p hp)]

/-- The properties that matter. -/
def recognized (properties : Members) : List (String × Value) :=
  (lowered properties).filter fun p => names.contains p.1

/-- The value that a property has in effect: that of the last one with this name in small letters. -/
def effective? (name : String) (properties : Members) : Option Value :=
  lastUnder name (lowered properties)

theorem addAll_eq (options : Members) {properties : Members}
    (h : ∀ p ∈ properties, ∃ k, p.1 = .text k) :
    addAll options properties = .ok (options.putAll (Members.named (recognized properties))) := by
  induction properties generalizing options with
  | nil => rfl
  | cons p ps ih =>
    obtain ⟨key, v⟩ := p
    obtain ⟨k, rfl⟩ := h _ List.mem_cons_self
    have hps := fun options => ih options fun p hp => h p (List.mem_cons_of_mem _ hp)
    have hlowered : lowered ((.text k, v) :: ps) = (Text.lower k, spelled v) :: lowered ps := rfl
    rw [addAll, add, recognized, hlowered, List.filter_cons]
    simp only [Value.lower?]
    by_cases hk : names.contains (Text.lower k) = true
    · simp only [hk, if_true, hps]
      rfl
    · simp only [hk, hps]
      rfl

/-- The normal form of properties that have texts as names. -/
theorem normalize_eq {properties : Members} (h : ∀ p ∈ properties, ∃ k, p.1 = .text k) :
    normalize properties = .ok (Members.named (latest (recognized properties))) := by
  rw [normalize, addAll_eq [] h, ← Members.ofList_named_latest]
  rfl

theorem lastUnder_recognized {name : String} (hname : name ∈ names) (properties : Members) :
    lastUnder name (recognized properties) = effective? name properties := by
  simp only [lastUnder, recognized, effective?, List.filter_filter]
  congr 3
  funext p
  by_cases hp : p.1 = name
  · simp [hp, hname]
  · simp [hp]

/-- What is found in the normal form under a recognized name is the property in effect. -/
theorem find?_normalize {properties options : Members} (h : ∀ p ∈ properties, ∃ k, p.1 = .text k)
    (hoptions : normalize properties = .ok options) {name : String} (hname : name ∈ names) :
    options.find? name = effective? name properties := by
  rw [normalize_eq h] at hoptions
  cases hoptions
  rw [Members.find?_named_latest, lastUnder_recognized hname]

/-- A property in effect is spelled out from one of the properties with its name. -/
theorem exists_of_effective? {name : String} {properties : Members} {v : Value}
    (h : effective? name properties = some v) :
    ∃ k w, (.text k, w) ∈ properties ∧ Text.lower k = name ∧ v = spelled w := by
  have hmem := lastUnder_mem h
  simp only [lowered, List.mem_filterMap, Option.map_eq_some_iff, Prod.mk.injEq] at hmem
  obtain ⟨p, hp, k, hk, hname, hv⟩ := hmem
  obtain ⟨key, w⟩ := p
  have hkey : key = .text k := by
    cases key <;> cases hk
    rfl
  exact ⟨k, w, hkey ▸ hp, hname, hv.symm⟩

end Options

end SchemaCatalog
