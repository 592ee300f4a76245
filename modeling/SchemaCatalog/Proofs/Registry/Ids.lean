/-
  The ids of stored schemas.

  Every schema that is stored has an id of its own, and none is given twice: a call stores at most one schema,
  with the next id (`stores_of_changed`).  In a registry whose ids are all below the next one and told apart
  (`Numbered`) an id says which schema is meant, and in which group.

  However a registry has gone on since a moment (`Since`), what has an id of that moment was there then, and in the
  same group.  So a schema can be removed but never come back, not even in a new group of the old name.
-/
import SchemaCatalog.Proofs.Registry.Basic

namespace SchemaCatalog.Registry

variable {r r₀ r₁ r₂ r' : Registry} {c : Call} {group : String} {v : StoredSchema}

/-- A group of the name holds the schema. -/
def Stores (r : Registry) (group : String) (v : StoredSchema) : Prop :=
    ∃ g ∈ r.groups, g.name = group ∧ v ∈ g.schemas

theorem stores_of_group? {g : Group} (hg : r.group? group = some g) (hv : v ∈ g.schemas) : r.Stores group v :=
  ⟨g, mem_of_group? hg, name_of_group? hg, hv⟩

/-- What is stored once the schemas of a group have been changed. -/
theorem stores_updateSchemas {name : String} {f : List StoredSchema → List StoredSchema}
    (h : (r.updateSchemas name f).Stores group v) :
    ∃ g ∈ r.groups, g.name = group ∧ v ∈ if group = name then f g.schemas else g.schemas := by
  obtain ⟨g', hg', rfl, hv⟩ := h
  obtain ⟨g, hg, rfl⟩ := List.mem_map.mp hg'
  by_cases hname : g.name = name
  · rw [if_pos (beq_iff_eq.mpr hname)] at hv ⊢
    exact ⟨g, hg, rfl, by rwa [if_pos hname]⟩
  · rw [if_neg fun heq => hname (beq_iff_eq.mp heq)] at hv ⊢
    exact ⟨g, hg, rfl, by rwa [if_neg hname]⟩

/-- What is stored after a call was stored before, or it is what the call adds. -/
theorem stores_of_changed (h : Changed r c r') (hv : r'.Stores group v) :
    r.Stores group v ∨ ∃ g, c = .addSchema group v.info ∧ r.group? group = some g ∧ v = r.newSchema g v.info ∧
      r'.nextId = r.nextId + 1 := by
  cases h with
  | nothing => exact .inl hv
  | addGroup name properties =>
    unfold Registry.addGroup at hv
    split at hv
    · exact .inl hv
    · obtain ⟨g, hg, rfl, hmem⟩ := hv
      rcases List.mem_append.mp hg with hg | hg
      · exact .inl ⟨g, hg, rfl, hmem⟩
      · rw [List.mem_singleton.mp hg] at hmem
        cases hmem
  | removeGroup name =>
    obtain ⟨g, hg, rfl, hmem⟩ := hv
    exact .inl ⟨g, List.mem_of_mem_filter hg, rfl, hmem⟩
  | @addSchema name g hg info =>
    -- the one call that stores something
    obtain rfl := name_of_group? hg
    have hupdated : (r.updateSchemas g.name (· ++ [r.newSchema g info])).Stores group v := hv
    obtain ⟨g', hg', rfl, hmem⟩ := stores_updateSchemas hupdated
    by_cases hname : g'.name = g.name
    · rw [if_pos hname] at hmem
      rcases List.mem_append.mp hmem with hmem | hmem
      · exact .inl ⟨g', hg', rfl, hmem⟩
      · obtain rfl := List.mem_singleton.mp hmem
        exact .inr ⟨g, by rw [hname]; rfl, by rw [hname]; exact hg, rfl, rfl⟩
    · rw [if_neg hname] at hmem
      exact .inl ⟨g', hg', rfl, hmem⟩
  | deleteVersion name version =>
    obtain ⟨g, hg, rfl, hmem⟩ := stores_updateSchemas hv
    refine .inl ⟨g, hg, rfl, ?_⟩
    split at hmem
    · exact List.mem_of_mem_filter hmem
    · exact hmem

theorem nextId_le_of_changed (h : Changed r c r') : r.nextId ≤ r'.nextId := by
  cases h with
  | addGroup name properties =>
    unfold Registry.addGroup
    split <;> exact Nat.le_refl _
  | addSchema hg info => exact Nat.le_succ _
  | nothing | removeGroup _ | deleteVersion _ _ => exact Nat.le_refl _

/-- What a deletion makes of a registry, with or without the group. -/
theorem perform_deleteVersion_snd (r : Registry) (name : String) (version : Version) :
    (r.perform (.deleteVersion name version)).2 = r.deleteVersion name version := by
  cases hg : r.group? name with
  | none =>
    rw [perform_of_none rfl hg, deleteVersion, updateSchemas_of_none hg]
  | some g => rw [perform_deleteVersion hg]

/-- A version that has been deleted from a group is not there. -/
theorem version_ne_of_stores_deleteVersion {version : Version}
    (h : (r.deleteVersion group version).Stores group v) :
    v.version ≠ version := by
  obtain ⟨g, -, -, hmem⟩ := stores_updateSchemas h
  rw [if_pos rfl] at hmem
  simpa using (List.mem_filter.mp hmem).2

/-- Deleting a version leaves all others. -/
theorem stores_deleteVersion {name : String} {version : Version} (h : r.Stores group v)
    (hother : group = name → v.version ≠ version) : (r.deleteVersion name version).Stores group v := by
  obtain ⟨g, hg, rfl, hv⟩ := h
  refine ⟨_, List.mem_map.mpr ⟨g, hg, rfl⟩, ?_⟩
  by_cases hname : g.name = name
  · rw [if_pos (beq_iff_eq.mpr hname)]
    exact ⟨rfl, List.mem_filter.mpr ⟨hv, by simpa using hother hname⟩⟩
  · rw [if_neg fun heq => hname (beq_iff_eq.mp heq)]
    exact ⟨rfl, hv⟩

/-! ## Ids are given once -/

/-- All ids were given already, and each to one schema of one group. -/
structure Numbered (r : Registry) : Prop where
  below : ∀ {group v}, r.Stores group v → v.version.id < r.nextId
  apart : ∀ {group group' v v'}, r.Stores group v → r.Stores group' v' → v.version.id = v'.version.id →
    group = group' ∧ v = v'

theorem numbered_empty : empty.Numbered := by
  constructor
  · rintro group v ⟨g, hg, -⟩
    cases hg
  · rintro group group' v v' ⟨g, hg, -⟩
    cases hg

/-- Every call keeps the ids apart. -/
theorem Numbered.changed (h : r.Numbered) (hr' : Changed r c r') : r'.Numbered := by
  constructor
  · intro group v hv
    rcases stores_of_changed hr' hv with hold | ⟨g, -, -, hnew, hnext⟩
    · exact Nat.lt_of_lt_of_le (h.below hold) (nextId_le_of_changed hr')
    · rw [hnew, hnext]
      exact Nat.lt_succ_self _
  · intro group group' v v' hv hv' heq
    rcases stores_of_changed hr' hv with hold | ⟨g, hcall, hg, hnew, -⟩
    · rcases stores_of_changed hr' hv' with hold' | ⟨g', -, -, hnew', -⟩
      · exact h.apart hold hold' heq
      · rw [hnew'] at heq
        exact absurd heq (Nat.ne_of_lt (h.below hold))
    · rcases stores_of_changed hr' hv' with hold' | ⟨g', hcall', hg', hnew', -⟩
      · rw [hnew] at heq
        exact absurd heq.symm (Nat.ne_of_lt (h.below hold'))
      · -- both are what the one call adds
        obtain ⟨rfl, hinfo⟩ := Call.addSchema.inj (hcall.symm.trans hcall')
        obtain rfl : g = g' := Option.some.inj (hg.symm.trans hg')
        exact ⟨rfl, by rw [hnew, hnew', hinfo]⟩

/-- What a registry can have become since it was `r₀`: ids have been given, and what has an id given before was
in the same group then. -/
structure Since (r₀ r : Registry) : Prop where
  nextId_le : r₀.nextId ≤ r.nextId
  old : ∀ {group v}, r.Stores group v → v.version.id < r₀.nextId → r₀.Stores group v

namespace Since

theorem refl (r : Registry) : Since r r := ⟨Nat.le_refl _, fun hv _ => hv⟩

theorem trans (h₁ : Since r₀ r₁) (h₂ : Since r₁ r₂) : Since r₀ r₂ where
  nextId_le := Nat.le_trans h₁.nextId_le h₂.nextId_le
  old := fun hv hid => h₁.old (h₂.old hv (Nat.lt_of_lt_of_le hid h₁.nextId_le)) hid

/-- What has an id given before is what had it then, in the same group. -/
theorem eq_of_id (h : Since r₀ r) (h₀ : r₀.Numbered) {group₀ : String} {v₀ : StoredSchema}
    (hv₀ : r₀.Stores group₀ v₀)
    (hv : r.Stores group v) (hid : v.version.id = v₀.version.id) : group = group₀ ∧ v = v₀ :=
  h₀.apart (h.old hv (hid ▸ h₀.below hv₀)) hv₀ hid

/-- A call adds at most a schema with a new id. -/
theorem of_changed (h : Changed r c r') : Since r r' where
  nextId_le := nextId_le_of_changed h
  old := by
    intro group v hv hid
    rcases stores_of_changed h hv with hold | ⟨g, -, -, hnew, -⟩
    · exact hold
    · rw [hnew] at hid
      exact absurd hid (Nat.lt_irrefl _)

end Since

end SchemaCatalog.Registry
