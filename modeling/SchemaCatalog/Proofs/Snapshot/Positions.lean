/-
  What a listing of the catalog should hold.

  Reading the catalog visits positions: a group that holds no version, or a type of a group that does.  A
  position is worth an entry unless the latest version there cannot be read, and then there is a reason.  All
  this is said here of the registry alone, with no word about requests and sessions.

  The types of a group are told apart exactly, and each counts at its first appearance; this is what
  erasing the later duplicates leaves.
-/
import SchemaCatalog.Snapshot.Build
import SchemaCatalog.Proofs.Registry.Basic
import SchemaCatalog.Proofs.Value.Latest
import Mathlib.Data.List.Nodup

namespace SchemaCatalog

/-! ## Types in order of first appearance -/

namespace Snapshot

/-- The type of one version more is new or known. -/
theorem typesOf_append (schemas : List StoredSchema) (s : StoredSchema) :
    typesOf (schemas ++ [s]) =
      if (typesOf schemas).contains s.info.type then typesOf schemas
      else typesOf schemas ++ [s.info.type] := by
  unfold typesOf
  rw [List.foldl_append, List.foldl_cons, List.foldl_nil]

/-- The types are those of the versions without the later duplicates. -/
theorem typesOf_eq (schemas : List StoredSchema) :
    typesOf schemas = (schemas.map fun s => s.info.type).eraseDups := by
  induction schemas using List.reverseRecOn with
  | nil => rfl
  | append_singleton schemas s ih =>
    rw [typesOf_append, ih, List.map_append, List.map_cons, List.map_nil]
    by_cases h : s.info.type ∈ schemas.map fun s => s.info.type
    · rw [eraseDups_append_old h]
      exact if_pos (List.contains_iff_mem.mpr (List.mem_eraseDups.mpr h))
    · rw [eraseDups_append_new h]
      exact if_neg fun hseen => h (List.mem_eraseDups.mp (List.contains_iff_mem.mp hseen))

/-- No type is there twice. -/
theorem nodup_typesOf (schemas : List StoredSchema) : (typesOf schemas).Nodup := by
  rw [typesOf_eq]
  exact nodup_eraseDups _

theorem mem_typesOf {schemas : List StoredSchema} {type : String} :
    type ∈ typesOf schemas ↔ type ∈ schemas.map fun s => s.info.type := by
  rw [typesOf_eq, List.mem_eraseDups]

end Snapshot

/-! ## Positions -/

/-- A place that reading the catalog visits. -/
inductive Position where
  /-- A group without versions. -/
  | group (name : String)
  /-- A type of a group. -/
  | table (group type : String)
deriving DecidableEq

/-- The positions of a group: itself if it holds no version, otherwise its types. -/
def positionsIn (group : String) (schemas : List StoredSchema) : List Position :=
  if schemas.isEmpty then [.group group]
  else ((schemas.map fun s => s.info.type).eraseDups).map (.table group)

theorem positionsIn_cons (group : String) (s : StoredSchema) (schemas : List StoredSchema) :
    positionsIn group (s :: schemas) = (Snapshot.typesOf (s :: schemas)).map (.table group) := by
  rw [Snapshot.typesOf_eq]
  rfl

namespace Registry

/-- The positions of a registry, group by group. -/
def positions (r : Registry) : List Position :=
  r.groups.flatMap fun g => positionsIn g.name (r.schemasOf g.name)

/-- The latest version of a type in a group. -/
def latestOf (r : Registry) (group type : String) : Option StoredSchema :=
  (r.group? group).bind fun g => latest? g type

/-- A client that is asked for the latest version answers with it. -/
theorem latestOf_of_perform {r : Registry} {group type : String} {s : StoredSchema}
    (h : (r.perform (.latestVersion group type)).1 = .ok s) : r.latestOf group type = some s := by
  cases hgroup : r.group? group with
  | none =>
    rw [perform_of_none rfl hgroup] at h
    cases h
  | some g =>
    rw [latestOf, hgroup, Option.bind_some]
    simp only [perform, findGroup_of_some hgroup] at h
    cases hlatest : latest? g type with
    | none => simp only [hlatest, reduceCtorEq] at h
    | some s' =>
      simp only [hlatest] at h
      rw [Except.ok.inj h]

section

variable [Json.Nesting]

/-- The entry that a position is worth: that of the group, or that of the document of the latest version
if it can be read. -/
def entryAt (r : Registry) : Position → Option Entry
  | .group name => some (Entry.ofNamespace name)
  | .table group type =>
    (r.latestOf group type).bind fun s => (Document.decode s.info.data).toOption.map Entry.ofTable

/-- A type is worth what the document of its latest version is read as. -/
theorem entryAt_table {r : Registry} {group type : String} {s : StoredSchema} {t : StoredTable}
    (hlatest : r.latestOf group type = some s) (ht : Document.decode s.info.data = .ok t) :
    r.entryAt (.table group type) = some (.ofTable t) := by
  rw [entryAt, hlatest, Option.bind_some, ht]
  rfl

/-- Why the latest version of a position cannot be read. -/
def faultAt (r : Registry) : Position → Option Unreadable
  | .group _ => none
  | .table group type =>
    (r.latestOf group type).bind fun s =>
      match Document.decode s.info.data with
      | .error why => some why
      | .ok _ => none

/-- Why the first position without an entry has none. -/
def unread? (r : Registry) : Option Unreadable := r.positions.findSome? r.faultAt

/-- The first position without an entry has none because its document nests too deep. -/
def FailsAt (r : Registry) (why : Unreadable) : Prop := r.unread? = some why ∧ why.kind = .tooDeep

/-- A position is at fault if the document of its latest version cannot be read. -/
theorem faultAt_table {r : Registry} {group type : String} {s : StoredSchema} {why : Unreadable}
    (hlatest : r.latestOf group type = some s) (hwhy : Document.decode s.info.data = .error why) :
    r.faultAt (.table group type) = some why := by
  rw [faultAt, hlatest, Option.bind_some, hwhy]

/-- No position is worth an entry that cannot be read. -/
theorem entryAt_of_faultAt {r : Registry} {p : Position} {why : Unreadable} (h : r.faultAt p = some why) :
    r.entryAt p = none := by
  cases p with
  | group name => cases h
  | table group type =>
    obtain ⟨s, hlatest, hwhy⟩ := Option.bind_eq_some_iff.mp h
    rw [entryAt, hlatest, Option.bind_some]
    split at hwhy
    · rename_i hdecode
      rw [hdecode]
      rfl
    · cases hwhy

/-- A position that is worth an entry is not at fault. -/
theorem faultAt_of_entryAt {r : Registry} {p : Position} {e : Entry} (h : r.entryAt p = some e) :
    r.faultAt p = none := by
  cases hfault : r.faultAt p with
  | none => rfl
  | some why =>
    rw [entryAt_of_faultAt hfault] at h
    cases h

end

/-! ## Positions are told apart -/

/-- The positions of a group tell its name. -/
theorem group_of_mem_positionsIn {group : String} {schemas : List StoredSchema} {p : Position}
    (h : p ∈ positionsIn group schemas) : p = .group group ∨ ∃ type, p = .table group type := by
  unfold positionsIn at h
  split at h
  · exact .inl (List.mem_singleton.mp h)
  · obtain ⟨type, -, rfl⟩ := List.mem_map.mp h
    exact .inr ⟨type, rfl⟩

theorem nodup_positionsIn (group : String) (schemas : List StoredSchema) :
    (positionsIn group schemas).Nodup := by
  unfold positionsIn
  split
  · exact List.nodup_singleton _
  · exact (nodup_eraseDups _).map fun _ _ h => (Position.table.inj h).2

/-- Where the names of groups are distinct, no position is visited twice. -/
theorem nodup_positions {r : Registry} (h : (r.groups.map Group.name).Nodup) : r.positions.Nodup := by
  unfold positions
  rw [List.nodup_flatMap]
  refine ⟨fun g _ => nodup_positionsIn g.name _, (List.pairwise_map.mp h).imp ?_⟩
  intro g g' hne p hp hp'
  rcases group_of_mem_positionsIn hp with rfl | ⟨type, rfl⟩
  · rcases group_of_mem_positionsIn hp' with heq | ⟨type', heq⟩
    · exact hne (Position.group.inj heq)
    · cases heq
  · rcases group_of_mem_positionsIn hp' with heq | ⟨type', heq⟩
    · cases heq
    · exact hne (Position.table.inj heq).1

end Registry

end SchemaCatalog
