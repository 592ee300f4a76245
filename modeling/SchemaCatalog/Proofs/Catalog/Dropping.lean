/-
  Dropping a table while the registry may be lost.

  The versions of a table are listed first and then deleted one by one, so the registry changes while the loop
  over its old contents runs.  What carries the argument is that the loop deletes from the front of its list:
  when it stops, those deleted are the first `k` of the versions listed, and `k` is what has been counted
  (`DeletesFirst`).

  Whatever stops the loop, or keeps it from being entered, is one of the two failures that tell of a loss,
  and dropping swallows both.  So it always succeeds, with `k` (`drop_ends`).

  That no other version is deleted needs the versions of the group to differ, since one is deleted by its
  number and not by its place.  Then deleting the first `k` versions that have a name takes exactly these
  places from the group (`drop_first_versions`).
-/
import SchemaCatalog.Proofs.Failing
import SchemaCatalog.Proofs.Catalog.Effects

namespace SchemaCatalog.Tables

open Server (Lossy)

/-- What the loop keeps: the first few of the versions are gone and have been counted on top of `n`, and what
stopped it, if anything did, tells of a loss. -/
def DeletesFirst (ns : String) (vs : List StoredSchema) (n : Nat) (r : Registry)
    (out : Nat × Except Failure Unit) (r' : Registry) : Prop :=
  ∃ k ≤ vs.length, out.1 = n + k ∧ r' = r.deleteVersions ns (vs.take k) ∧
    ∀ f, out.2 = .error f → f.TellsLoss

/-- A loss that comes at once leaves all versions where they are. -/
theorem deletesFirst_told {f : Failure} (hf : f.IsLoss) (e : Endpoint) (ns : String) (vs : List StoredSchema)
    (n : Nat) (r : Registry) : DeletesFirst ns vs n r (n, .error (e.told f)) r := by
  refine ⟨0, Nat.zero_le _, rfl, rfl, ?_⟩
  rintro _ ⟨⟩
  exact hf.told e

/-- Deleting schemas one after the other deletes the first few, up to a loss, and counts them. -/
theorem deleteEach_ends (session : Session) {ns : String} (n : Nat) (vs : List StoredSchema)
    (r : Registry) (hg : (r.group? ns).isSome) :
    (deleteEach session ns n vs).Ends Lossy r (DeletesFirst ns vs n r) := by
  induction vs generalizing n r with
  | nil => exact .done ⟨0, Nat.le_refl 0, rfl, rfl, fun _ h => by cases h⟩
  | cons v vs ih =>
    obtain ⟨g, hsome⟩ := Option.isSome_iff_exists.mp hg
    refine .say_bind (.bind (Attempt.Ends.call session (.deleteVersion ns v.version)) ?_)
    rintro x r₁ (⟨y, hperform, rfl⟩ | ⟨⟨f, hf, rfl⟩, rfl⟩)
    · rw [Registry.perform_deleteVersion hsome] at hperform
      cases hperform
      have hstill : ((r.deleteVersion ns v.version).group? ns).isSome := by
        rwa [Registry.deleteVersion, Registry.group?_updateSchemas_isSome]
      refine (ih (n + 1) (r.deleteVersion ns v.version) hstill).mono ?_
      rintro ⟨m, outcome⟩ r' ⟨k, hk, rfl, rfl, hlost⟩
      exact ⟨k + 1, Nat.succ_le_succ hk, by omega, rfl, hlost⟩
    · -- the version is still there, and so are those behind it
      exact .done (deletesFirst_told (Server.isLoss_of_raises hf) session.endpoint ns (v :: vs) n _)

/-- In a session, the first few of the versions that have the name are deleted. -/
theorem dropIn_ends (session : Session) (ns name : String) (r : Registry) :
    (dropIn session ns name).Ends Lossy r
      (DeletesFirst ns ((r.schemasOf ns).filter (isNamed name)) 0 r) := by
  refine .bind (Attempt.Ends.call session (.getSchemas ns)) ?_
  rintro x r₁ (⟨y, hperform, rfl⟩ | ⟨⟨f, hf, rfl⟩, rfl⟩)
  · cases hg : r.group? ns with
    | none =>
      rw [Registry.perform_of_none rfl hg] at hperform
      cases hperform
      -- that the group is not there is a loss as well
      exact .done (deletesFirst_told (.inr (.inr rfl)) session.endpoint ns _ 0 _)
    | some g =>
      rw [Registry.perform_getSchemas hg] at hperform
      cases hperform
      rw [Registry.schemasOf_of_some hg]
      exact deleteEach_ends session 0 (g.schemas.filter (isNamed name)) r
        (Option.isSome_iff_exists.mpr ⟨g, hg⟩)
  · exact .done (deletesFirst_told (Server.isLoss_of_raises hf) session.endpoint ns _ 0 _)

/-- A loss is swallowed: dropping tells how many versions it has deleted, which are the first. -/
theorem drop_ends (e : Endpoint) (ns name : String) (r : Registry) :
    (Tables.drop e ns name).Ends Lossy r fun x r' =>
      ∃ k ≤ (r.schemasOf ns).countP (isNamed name), x = .ok k ∧
        r' = r.deleteVersions ns (((r.schemasOf ns).filter (isNamed name)).take k) := by
  have hsession : (inSession e 0 fun s => dropIn s ns name).Ends Lossy r
      (DeletesFirst ns ((r.schemasOf ns).filter (isNamed name)) 0 r) :=
    inSession_ends (fun f hf => deletesFirst_told hf.2 e ns _ 0 r) (fun f hf => absurd rfl hf.1) fun client =>
      dropIn_ends ⟨e, client⟩ ns name r
  refine Dialogue.Ends.say_bind (.bind hsession ?_)
  rintro ⟨m, outcome⟩ r' ⟨k, hk, hcount, rfl, hlost⟩
  obtain rfl : m = k := hcount.trans (Nat.zero_add k)
  rw [← List.countP_eq_length_filter] at hk
  cases outcome with
  | ok u => exact .done ⟨m, hk, rfl, rfl⟩
  | error f =>
    -- a loss is logged in one of two ways, and does not matter otherwise
    simp only
    split
    · exact Dialogue.Ends.say_bind (.done ⟨m, hk, rfl, rfl⟩)
    · rename_i hthere
      rw [if_pos ((hlost f rfl).resolve_right hthere)]
      exact Dialogue.Ends.say_bind (.done ⟨m, hk, rfl, rfl⟩)

/-- **Dropping deletes the first versions of a table, and nothing else.**  Whatever is lost on the way, it
does not fail but tells a number `k`.  The group under exactly the name has lost the first `k` of its versions
that have the name of the table, letter case aside, and all else is as it was.  With nothing wrong `k` is the
number of all such versions; without the group nothing changes. -/
theorem drop_first_versions (e : Endpoint) (ns name : String) {s : Server} (hs : s.OnlyLosses)
    (hversions : ((s.registry.schemasOf ns).map StoredSchema.version).Nodup) :
    let out := (Tables.drop e ns name).run.run Server.answer s
    let r := s.registry
    ∃ k ≤ (r.schemasOf ns).countP (isNamed name),
      out.result = .ok k ∧
      out.state.registry.schemasOf ns = (List.eraseP (isNamed name))^[k] (r.schemasOf ns) ∧
      r.SameBut ns out.state.registry ∧
      (s.Healthy → k = (r.schemasOf ns).countP (isNamed name)) ∧
      (r.group? ns = none → k = 0 ∧ out.state.registry = r) := by
  intro out r
  obtain ⟨k, hk, hresult, hr'⟩ := (drop_ends e ns name r).run hs.faultsAre
  refine ⟨k, hk, hresult, ?_, ?_, ?_, ?_⟩
  · rw [hr', Registry.schemasOf_deleteVersions (isNamed name) hversions]
  · rw [hr', Registry.deleteVersions_eq]
    exact Registry.sameBut_updateSchemas _
  · intro hhealthy
    have hall := ((drop_each_gives e ns name r).run hhealthy rfl).1
    exact Except.ok.inj (hresult.symm.trans hall)
  · intro hnone
    rw [Registry.schemasOf_of_none hnone, List.countP_nil, Nat.le_zero] at hk
    rw [hr', Registry.schemasOf_of_none hnone, hk]
    exact ⟨rfl, rfl⟩

/-- Two versions are to go, under two spellings; the connection is lost before the second of them. -/
theorem drop_first_versions_reset :
    ∃ (e : Endpoint) (s : Server), s.OnlyLosses ∧
      ((s.registry.schemasOf "sales").map StoredSchema.version).Nodup ∧
      let out := (Tables.drop e "sales" "ORDERS").run.run Server.answer s
      out.result = .ok 1 ∧
      ((s.registry.schemasOf "sales").map fun v => v.info.type) = ["Orders", "items", "orders"] ∧
      ((out.state.registry.schemasOf "sales").map fun v => v.info.type) = ["items", "orders"] := by
  let stored (type : String) (id : Nat) : StoredSchema := ⟨Tables.schemaOf type "", ⟨type, 0, id⟩⟩
  let r : Registry :=
    ⟨[⟨"sales", .ofOwner .null, [stored "Orders" 0, stored "items" 1, stored "orders" 2]⟩], 3⟩
  let f : Fault := ⟨.deleteVersion, none, .raised .connectionReset "reset", 1, 1⟩
  let e : Endpoint := ⟨.text "localhost", 9092, .text "default"⟩
  let s : Server := { Server.start true with registry := r, faults := [f] }
  have hs : s.OnlyLosses := by
    intro g hg
    obtain rfl : g = f := List.mem_singleton.mp hg
    exact ⟨by decide, by decide⟩
  have hversions : ((s.registry.schemasOf "sales").map StoredSchema.version).Nodup := by decide
  obtain ⟨k, -, hresult, hschemas, -⟩ := drop_first_versions e "sales" "ORDERS" hs hversions
  have hone : ((Tables.drop e "sales" "ORDERS").run.run Server.answer s).result = .ok 1 :=
    eq_ok_of_toOption (by decide +kernel)
  obtain rfl : k = 1 := Except.ok.inj (hresult.symm.trans hone)
  refine ⟨e, s, hs, hversions, hresult, rfl, ?_⟩
  rw [hschemas]
  decide +kernel

end SchemaCatalog.Tables
