/-
  What a registry in memory answers, and what a call changes in it.

  1. **Answers.**  A call that needs a group fails without it and changes nothing, whatever the call.  With
     its group, every call but one for the latest version of an unknown type succeeds.

  2. **Changes.**  Schemas are added and deleted by changing those of the group with a name, so the lemmas
     about `updateSchemas` serve both.  Groups never get a name that another one has; this is kept by every
     call (`Sound`), and so is that a version tells the type of its schema.
-/
import SchemaCatalog.Registry.Server
import Mathlib.Data.List.Nodup
import Mathlib.Logic.Function.Iterate

namespace SchemaCatalog

/-- Whether a call only reads. -/
def Call.isReading : Call → Bool
  | .listGroups | .getSchemas _ | .latestVersion .. => true
  | _ => false

/-- The group that has to be there for a call. -/
def Call.needed? : Call → Option String
  | .listGroups | .addGroup .. => none
  | .removeGroup g | .getSchemas g | .addSchema g _ | .deleteVersion g _ | .latestVersion g _ => some g

namespace Registry

/-- The versions under the name of a group. -/
def schemasOf (r : Registry) (name : String) : List StoredSchema :=
  ((r.group? name).map Group.schemas).getD []

variable {r : Registry} {name : String} {g : Group}

/-! ## Groups -/

theorem name_of_group? (h : r.group? name = some g) : g.name = name := by
  have hname := List.find?_some h
  exact beq_iff_eq.mp hname

theorem mem_of_group? (h : r.group? name = some g) : g ∈ r.groups := List.mem_of_find?_eq_some h

/-- A group is found exactly under the names that there are. -/
theorem group?_isSome : (r.group? name).isSome ↔ name ∈ r.groups.map Group.name := by
  simp only [group?, List.find?_isSome, List.mem_map, beq_iff_eq]

theorem group?_eq_none : r.group? name = none ↔ name ∉ r.groups.map Group.name := by
  rw [← group?_isSome, Option.not_isSome_iff_eq_none]

/-- Where names are distinct, a group is found under its name. -/
theorem group?_of_mem (hd : (r.groups.map Group.name).Nodup) (h : g ∈ r.groups) :
    r.group? g.name = some g := by
  obtain ⟨g', hg'⟩ := Option.isSome_iff_exists.mp (group?_isSome.mpr (List.mem_map.mpr ⟨g, h, rfl⟩))
  rw [hg', List.inj_on_of_nodup_map hd (mem_of_group? hg') h (name_of_group? hg')]

theorem schemasOf_of_some (h : r.group? name = some g) : r.schemasOf name = g.schemas := by
  rw [schemasOf, h, Option.map_some, Option.getD_some]

theorem schemasOf_of_none (h : r.group? name = none) : r.schemasOf name = [] := by
  rw [schemasOf, h, Option.map_none, Option.getD_none]

/-- Calls look a group up in the same way, and say which one is missing. -/
theorem findGroup_of_some (h : r.group? name = some g) : r.findGroup name = .ok g := by
  rw [findGroup, h]

theorem findGroup_of_none (h : r.group? name = none) : r.findGroup name = .error (.noGroup name) := by
  rw [findGroup, h]

/-! ## Answers -/

/-- A call without the group that it needs fails and changes nothing. -/
theorem perform_of_none {c : Call} (hc : c.needed? = some name) (h : r.group? name = none) :
    r.perform c = (.error (.noGroup name), r) := by
  cases c with
  | listGroups => cases hc
  | addGroup _ _ => cases hc
  | removeGroup g | getSchemas g | addSchema g _ | deleteVersion g _ | latestVersion g _ =>
    obtain rfl : g = name := Option.some.inj hc
    unfold perform
    simp only [findGroup_of_none h]

/-- A group that is there is removed with all it holds. -/
theorem perform_removeGroup (h : r.group? name = some g) :
    r.perform (.removeGroup name) = (.ok (), r.removeGroup name) := by
  unfold perform
  simp only [findGroup_of_some h]

/-- The versions of a group are told in their order, and nothing changes. -/
theorem perform_getSchemas (h : r.group? name = some g) :
    r.perform (.getSchemas name) = (.ok g.schemas, r) := by
  unfold perform
  simp only [findGroup_of_some h]

/-- A new version is told to whoever stores it. -/
theorem perform_addSchema (h : r.group? name = some g) (info : SchemaInfo) :
    r.perform (.addSchema name info) = (.ok (r.newSchema g info).version, r.addSchema g info) := by
  unfold perform
  simp only [findGroup_of_some h]

/-- Deleting is answered in the same way whether there is such a version or not. -/
theorem perform_deleteVersion (h : r.group? name = some g) (version : Version) :
    r.perform (.deleteVersion name version) = (.ok (), r.deleteVersion name version) := by
  unfold perform
  simp only [findGroup_of_some h]

/-- The latest version of a type is told, and nothing changes. -/
theorem perform_latestVersion {type : String} {s : StoredSchema} (h : r.group? name = some g)
    (hs : latest? g type = some s) : r.perform (.latestVersion name type) = (.ok s, r) := by
  unfold perform
  simp only [findGroup_of_some h, hs]

/-- A type that a version of the group has is answered. -/
theorem exists_latest {type : String} (h : type ∈ g.schemas.map fun s => s.info.type) :
    ∃ s, latest? g type = some s := by
  obtain ⟨s, hs, rfl⟩ := List.mem_map.mp h
  have hne : g.schemas.filter (ofType s.info.type) ≠ [] := by
    refine List.ne_nil_of_mem (a := s) (List.mem_filter.mpr ⟨hs, ?_⟩)
    exact beq_self_eq_true _
  exact ⟨_, List.getLast?_eq_getLast_of_ne_nil hne⟩

/-- A call fails for want of the group that it needs, or of a version of a type there. -/
theorem perform_error {c : Call} {r' : Registry} {f : Failure} (h : r.perform c = (.error f, r')) :
    ∃ group, c.needed? = some group ∧ (f = .noGroup group ∨ ∃ type, f = .noSchema type group) := by
  cases hc : c.needed? with
  | none =>
    cases c with
    | listGroups | addGroup _ _ => cases h
    | removeGroup _ | getSchemas _ | addSchema _ _ | deleteVersion _ _ | latestVersion _ _ => cases hc
  | some name =>
    refine ⟨name, rfl, ?_⟩
    cases hg : r.group? name with
    | none =>
      rw [perform_of_none hc hg] at h
      cases h
      exact .inl rfl
    | some g =>
      cases c with
      | listGroups | addGroup _ _ => cases hc
      | removeGroup n | getSchemas n | addSchema n _ | deleteVersion n _ =>
        obtain rfl : n = name := Option.some.inj hc
        unfold perform at h
        simp only [findGroup_of_some hg] at h
        cases h
      | latestVersion n type =>
        obtain rfl : n = name := Option.some.inj hc
        unfold perform at h
        cases hs : latest? g type with
        | some s =>
          simp only [findGroup_of_some hg, hs] at h
          cases h
        | none =>
          simp only [findGroup_of_some hg, hs] at h
          cases h
          exact .inr ⟨type, rfl⟩

/-- A reading call leaves the registry as it is. -/
theorem perform_reading {c : Call} (h : c.isReading = true) (r : Registry) : (r.perform c).2 = r := by
  unfold Call.isReading at h
  split at h
  · rfl
  · rename_i name
    cases hg : r.group? name with
    | none => rw [perform_of_none rfl hg]
    | some g => rw [perform_getSchemas hg]
  · rename_i name type
    cases hg : r.group? name with
    | none => rw [perform_of_none rfl hg]
    | some g =>
      unfold perform
      cases hs : latest? g type <;> simp only [findGroup_of_some hg, hs]
  · cases h

/-! ## Changes -/

/-- Removing a group that is not there changes nothing. -/
theorem removeGroup_of_none (h : r.group? name = none) : r.removeGroup name = r := by
  have hother : ∀ g ∈ r.groups, (!(g.name == name)) = true := by
    intro g hg
    have hne : g.name ≠ name := fun heq => group?_eq_none.mp h (List.mem_map.mpr ⟨g, hg, heq⟩)
    rw [beq_eq_false_iff_ne.mpr hne, Bool.not_false]
  rw [removeGroup, List.filter_eq_self.mpr hother]

/-- What becomes of the versions of a group is nothing to the names of the groups. -/
theorem names_updateSchemas (f : List StoredSchema → List StoredSchema) :
    (r.updateSchemas name f).groups.map Group.name = r.groups.map Group.name := by
  rw [updateSchemas, List.map_map]
  refine List.map_congr_left fun g _ => ?_
  simp only [Function.comp_apply]
  split <;> rfl

/-- A change does not touch the names by which groups are found, and shows in the group that has the name. -/
theorem find?_updateSchemas (f : List StoredSchema → List StoredSchema) (p : String → Bool) :
    ((r.updateSchemas name f).groups.find? fun g => p g.name) =
      (r.groups.find? fun g => p g.name).map fun g =>
        if g.name == name then { g with schemas := f g.schemas } else g := by
  rw [updateSchemas, List.find?_map]
  have hnames : ((fun g : Group => p g.name) ∘ fun g : Group =>
      if g.name == name then { g with schemas := f g.schemas } else g) = fun g => p g.name := by
    funext g
    simp only [Function.comp_apply]
    split <;> rfl
  rw [hnames]

/-- Only the group of that name has other versions then. -/
theorem group?_updateSchemas (f : List StoredSchema → List StoredSchema) (n : String) :
    (r.updateSchemas name f).group? n =
      (r.group? n).map fun g => if g.name == name then { g with schemas := f g.schemas } else g :=
  find?_updateSchemas f (· == n)

theorem group?_updateSchemas_isSome (f : List StoredSchema → List StoredSchema) (n : String) :
    ((r.updateSchemas name f).group? n).isSome = (r.group? n).isSome := by
  rw [Bool.eq_iff_iff, group?_isSome, group?_isSome, names_updateSchemas]

theorem updateSchemas_id : (r.updateSchemas name fun ss => ss) = r := by
  have hself : (r.groups.map fun g => if g.name == name then { g with schemas := g.schemas } else g) =
    r.groups := by
    refine (List.map_congr_left fun g _ => ?_).trans (List.map_id r.groups)
    split <;> rfl
  rw [updateSchemas, hself]

/-- Two changes of the versions of one group are one. -/
theorem updateSchemas_updateSchemas (f f' : List StoredSchema → List StoredSchema) :
    (r.updateSchemas name f).updateSchemas name f' = r.updateSchemas name fun ss => f' (f ss) := by
  unfold updateSchemas
  simp only [List.map_map]
  congr 1
  refine List.map_congr_left fun g _ => ?_
  by_cases h : (g.name == name) = true
  · simp only [Function.comp_apply, if_pos h]
  · simp only [Function.comp_apply, if_neg h]

/-- Two changes are the same if they are on every group with the name. -/
theorem updateSchemas_congr {f f' : List StoredSchema → List StoredSchema}
    (h : ∀ g ∈ r.groups, g.name = name → f g.schemas = f' g.schemas) :
    r.updateSchemas name f = r.updateSchemas name f' := by
  unfold updateSchemas
  congr 1
  refine List.map_congr_left fun g hg => ?_
  by_cases hname : (g.name == name) = true
  · rw [if_pos hname, if_pos hname, h g hg (beq_iff_eq.mp hname)]
  · rw [if_neg hname, if_neg hname]

/-- Changing the schemas of a group that is not there changes nothing. -/
theorem updateSchemas_of_none (h : r.group? name = none) (f : List StoredSchema → List StoredSchema) :
    r.updateSchemas name f = r := by
  refine (updateSchemas_congr fun g hg hname => ?_).trans updateSchemas_id
  exact absurd (List.mem_map.mpr ⟨g, hg, hname⟩) (group?_eq_none.mp h)

/-- The versions of the group are those that the change makes of them. -/
theorem schemasOf_updateSchemas (f : List StoredSchema → List StoredSchema) (hg : r.group? name = some g) :
    (r.updateSchemas name f).schemasOf name = f (r.schemasOf name) := by
  have hname : (g.name == name) = true := beq_iff_eq.mpr (name_of_group? hg)
  rw [schemasOf, group?_updateSchemas, hg, Option.map_some, if_pos hname, schemasOf_of_some hg]
  rfl

/-- The registries differ in nothing but the schemas under one name. -/
structure SameBut (name : String) (r r' : Registry) : Prop where
  groups : r'.groups.map (fun g => (g.name, g.properties)) = r.groups.map fun g => (g.name, g.properties)
  schemas : ∀ n, n ≠ name → r'.schemasOf n = r.schemasOf n

/-- Nothing else is touched by it. -/
theorem sameBut_updateSchemas (f : List StoredSchema → List StoredSchema) :
    SameBut name r (r.updateSchemas name f) where
  groups := by
    rw [updateSchemas, List.map_map]
    refine List.map_congr_left fun g _ => ?_
    simp only [Function.comp_apply]
    split <;> rfl
  schemas := by
    intro n hn
    rw [schemasOf, group?_updateSchemas]
    cases hg : r.group? n with
    | none => rw [schemasOf_of_none hg, Option.map_none, Option.map_none, Option.getD_none]
    | some g =>
      have hother : ¬(g.name == name) = true := by
        rw [name_of_group? hg, beq_iff_eq]
        exact hn
      rw [schemasOf_of_some hg, Option.map_some, if_neg hother, Option.map_some, Option.getD_some]

/-- A new version stands behind those that are there. -/
theorem schemasOf_addSchema (hg : r.group? name = some g) (info : SchemaInfo) :
    (r.addSchema g info).schemasOf name = r.schemasOf name ++ [r.newSchema g info] := by
  obtain rfl := name_of_group? hg
  exact schemasOf_updateSchemas (· ++ [r.newSchema g info]) hg

theorem sameBut_addSchema (g : Group) (info : SchemaInfo) : SameBut g.name r (r.addSchema g info) :=
  have hupdate : SameBut g.name r (r.updateSchemas g.name (· ++ [r.newSchema g info])) :=
    sameBut_updateSchemas _
  ⟨hupdate.groups, hupdate.schemas⟩

/-- The registry without some versions of a group, deleted one after the other. -/
def deleteVersions (r : Registry) (name : String) (vs : List StoredSchema) : Registry :=
  vs.foldl (fun r v => r.deleteVersion name v.version) r

/-- Deleting versions one after the other leaves the schemas with none of them. -/
theorem deleteVersions_eq (vs : List StoredSchema) (r : Registry) :
    r.deleteVersions name vs =
      r.updateSchemas name fun ss => ss.filter fun s => vs.all fun v => !(s.version == v.version) := by
  unfold deleteVersions
  induction vs generalizing r with
  | nil =>
    simp only [List.foldl_nil, List.all_nil, List.filter_true]
    exact updateSchemas_id.symm
  | cons v vs ih =>
    rw [List.foldl_cons, ih, deleteVersion, updateSchemas_updateSchemas]
    refine updateSchemas_congr fun g _ _ => ?_
    simp only [List.filter_filter, List.all_cons, Bool.and_comm]

theorem iterate_eraseP_cons {p : StoredSchema → Bool} {a : StoredSchema} (h : ¬p a = true) (k : Nat)
    (ss : List StoredSchema) : (List.eraseP p)^[k] (a :: ss) = a :: (List.eraseP p)^[k] ss := by
  induction k generalizing ss with
  | zero => rfl
  | succ k ih => rw [Function.iterate_succ_apply, Function.iterate_succ_apply, List.eraseP_cons_of_neg h, ih]

/-- Where versions differ, the schemas without the versions of the first few of a kind are those without the
first few of that kind.  The induction is on the schemas: each is of the kind and among the first few, or no
version that goes is its own. -/
theorem filter_take_eq_iterate_eraseP (p : StoredSchema → Bool) {ss : List StoredSchema}
    (h : (ss.map StoredSchema.version).Nodup) (k : Nat) :
    (ss.filter fun s => ((ss.filter p).take k).all fun v => !(s.version == v.version)) =
      (List.eraseP p)^[k] ss := by
  induction ss generalizing k with
  | nil =>
    rw [Function.iterate_fixed rfl]
    rfl
  | cons a ss ih =>
    rw [List.map_cons, List.nodup_cons] at h
    have hne : ∀ s ∈ ss, s.version ≠ a.version := fun s hs heq => h.1 (List.mem_map.mpr ⟨s, hs, heq⟩)
    by_cases hp : p a = true
    · cases k with
      | zero => simp only [List.take_zero, List.all_nil, List.filter_true, Function.iterate_zero_apply]
      | succ k =>
        -- `a` itself goes, and its version is not that of another
        rw [List.filter_cons_of_pos hp, List.take_succ_cons, Function.iterate_succ_apply,
          List.eraseP_cons_of_pos hp, ← ih h.2, List.filter_cons_of_neg]
        · refine List.filter_congr fun s hs => ?_
          rw [List.all_cons, beq_eq_false_iff_ne.mpr (hne s hs), Bool.not_false, Bool.true_and]
        · rw [List.all_cons, beq_self_eq_true, Bool.not_true, Bool.false_and]
          exact Bool.false_ne_true
    · rw [List.filter_cons_of_neg hp, iterate_eraseP_cons hp, ← ih h.2, List.filter_cons_of_pos]
      rw [List.all_eq_true]
      intro v hv
      have hv' : v ∈ ss := List.mem_of_mem_filter (List.mem_of_mem_take hv)
      rw [Bool.not_eq_true', beq_eq_false_iff_ne]
      exact (hne v hv').symm

/-- Deleting the first few versions of a kind takes these from the schemas, where versions differ. -/
theorem schemasOf_deleteVersions (p : StoredSchema → Bool)
    (h : ((r.schemasOf name).map StoredSchema.version).Nodup) (k : Nat) :
    (r.deleteVersions name (((r.schemasOf name).filter p).take k)).schemasOf name =
      (List.eraseP p)^[k] (r.schemasOf name) := by
  rw [deleteVersions_eq]
  cases hg : r.group? name with
  | none => rw [updateSchemas_of_none hg, schemasOf_of_none hg, Function.iterate_fixed rfl]
  | some g => rw [schemasOf_updateSchemas _ hg, filter_take_eq_iterate_eraseP p h]

/-- What a call can make of a registry. -/
inductive Changed (r : Registry) : Call → Registry → Prop
  | nothing (c : Call) : Changed r c r
  | addGroup (name : String) (properties : GroupProperties) :
    Changed r (.addGroup name properties) (r.addGroup name properties)
  | removeGroup (name : String) : Changed r (.removeGroup name) (r.removeGroup name)
  | addSchema {name : String} {g : Group} (hg : r.group? name = some g) (info : SchemaInfo) :
    Changed r (.addSchema name info) (r.addSchema g info)
  | deleteVersion (name : String) (version : Version) :
    Changed r (.deleteVersion name version) (r.deleteVersion name version)

/-- Every call changes the registry in the way of its kind. -/
theorem changed_perform (r : Registry) (c : Call) : Changed r c (r.perform c).2 := by
  cases hc : c.needed? with
  | none =>
    cases c with
    | listGroups => exact .nothing _
    | addGroup name properties => exact .addGroup name properties
    | removeGroup _ | getSchemas _ | addSchema _ _ | deleteVersion _ _ | latestVersion _ _ => cases hc
  | some name =>
    -- a call without its group changes nothing, so the group may be taken to be there
    cases hg : r.group? name with
    | none => rw [perform_of_none hc hg]; exact .nothing _
    | some g =>
      cases c with
      | listGroups | addGroup _ _ => cases hc
      | getSchemas n => rw [perform_reading rfl]; exact .nothing _
      | latestVersion n type => rw [perform_reading rfl]; exact .nothing _
      | removeGroup n =>
        obtain rfl : n = name := Option.some.inj hc
        rw [perform_removeGroup hg]
        exact .removeGroup n
      | addSchema n info =>
        obtain rfl : n = name := Option.some.inj hc
        rw [perform_addSchema hg]
        exact .addSchema hg info
      | deleteVersion n version =>
        obtain rfl : n = name := Option.some.inj hc
        rw [perform_deleteVersion hg]
        exact .deleteVersion n version

/-! ## What every call keeps -/

/-- No two groups have one name, and a version tells the type of its schema. -/
structure Sound (r : Registry) : Prop where
  distinct : (r.groups.map Group.name).Nodup
  typed : ∀ g ∈ r.groups, ∀ s ∈ g.schemas, s.version.type = s.info.type

theorem sound_empty : empty.Sound := ⟨List.nodup_nil, fun _ hg => by cases hg⟩

/-- A group is added under a new name. -/
theorem nodup_names_addGroup (h : (r.groups.map Group.name).Nodup) (name : String) (properties : GroupProperties) :
    ((r.addGroup name properties).groups.map Group.name).Nodup := by
  unfold Registry.addGroup
  split
  · exact h
  · rename_i hnew
    rw [List.map_append, List.nodup_append]
    refine ⟨h, List.nodup_singleton _, ?_⟩
    rintro n hn _ hm rfl
    obtain rfl : n = name := List.mem_singleton.mp hm
    exact hnew (group?_isSome.mpr hn)

/-- Every call keeps the names of groups distinct. -/
theorem Changed.nodup_names {c : Call} {r' : Registry} (h : Changed r c r')
    (hd : (r.groups.map Group.name).Nodup) :
    (r'.groups.map Group.name).Nodup := by
  cases h with
  | nothing => exact hd
  | addGroup name properties => exact nodup_names_addGroup hd name properties
  | removeGroup name => exact hd.sublist (List.filter_sublist.map Group.name)
  | @addSchema name g hg info =>
    have hnames : (r.addSchema g info).groups.map Group.name = r.groups.map Group.name :=
      names_updateSchemas (· ++ [r.newSchema g info])
    rwa [hnames]
  | deleteVersion name version =>
    have hnames : (r.deleteVersion name version).groups.map Group.name = r.groups.map Group.name :=
      names_updateSchemas _
    rwa [hnames]

theorem Sound.addGroup (h : r.Sound) (name : String) (properties : GroupProperties) :
    (r.addGroup name properties).Sound := by
  refine ⟨nodup_names_addGroup h.distinct name properties, ?_⟩
  unfold Registry.addGroup
  split
  · exact h.typed
  · intro g hg
    rcases List.mem_append.mp hg with hg | hg
    · exact h.typed g hg
    · rw [List.mem_singleton.mp hg]
      intro s hs
      cases hs

theorem Sound.removeGroup (h : r.Sound) (name : String) : (r.removeGroup name).Sound :=
  ⟨h.distinct.sublist (List.filter_sublist.map Group.name),
    fun g hg => h.typed g (List.mem_of_mem_filter hg)⟩

/-- A change of versions keeps a registry sound if those that it leaves have the type of their schema. -/
theorem Sound.updateSchemas (h : r.Sound) {f : List StoredSchema → List StoredSchema}
    (hf : ∀ g ∈ r.groups, ∀ s ∈ f g.schemas, s.version.type = s.info.type) :
    (r.updateSchemas name f).Sound := by
  constructor
  · rw [names_updateSchemas]
    exact h.distinct
  · intro g hg s hs
    obtain ⟨g₀, hg₀, rfl⟩ := List.mem_map.mp hg
    by_cases hname : (g₀.name == name) = true
    · rw [if_pos hname] at hs
      exact hf g₀ hg₀ s hs
    · rw [if_neg hname] at hs
      exact h.typed g₀ hg₀ s hs

/-- A new version has the type of its schema. -/
theorem Sound.addSchema (h : r.Sound) (g : Group) (info : SchemaInfo) : (r.addSchema g info).Sound := by
  have hupdate : (r.updateSchemas g.name (· ++ [r.newSchema g info])).Sound := by
    refine h.updateSchemas fun g' hg' s hs => ?_
    rcases List.mem_append.mp hs with hs | hs
    · exact h.typed g' hg' s hs
    · rw [List.mem_singleton.mp hs]
      rfl
  exact ⟨hupdate.distinct, hupdate.typed⟩

theorem Sound.deleteVersion (h : r.Sound) (name : String) (version : Version) :
    (r.deleteVersion name version).Sound :=
  h.updateSchemas fun g hg s hs => h.typed g hg s (List.mem_of_mem_filter hs)

/-- Every call keeps a registry sound. -/
theorem Sound.perform (h : r.Sound) (c : Call) : (r.perform c).2.Sound := by
  have hchanged := changed_perform r c
  generalize (r.perform c).2 = r' at hchanged ⊢
  cases hchanged with
  | nothing => exact h
  | addGroup name properties => exact h.addGroup name properties
  | removeGroup name => exact h.removeGroup name
  | addSchema _ info => exact h.addSchema _ info
  | deleteVersion name version => exact h.deleteVersion name version

end Registry

end SchemaCatalog
