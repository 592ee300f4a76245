/-
  The listing of a registry.

  With nothing wrong, reading the catalog changes nothing and its outcome is a matter of the registry alone:
  `Registry.listing` says which entries are read, those of the positions before the first that has none, and
  `Registry.listed` what comes of it, since a document that nests too deep spoils the listing.  What is looked up
  in the catalog afterwards can so be said of this list.

  Every entry of it has an origin: it stands for a group, or it was read from a document.
-/
import SchemaCatalog.Proofs.Requests
import SchemaCatalog.Proofs.Snapshot.Build
import SchemaCatalog.Proofs.Catalog.Effects
import Mathlib.Data.List.ReduceOption

namespace SchemaCatalog

variable {α : Type} {r : Registry}

/-! ## Reading attempts on healthy servers -/

/-- A healthy server stays so, whatever is asked of it. -/
theorem Server.Healthy.answer {s : Server} (h : s.Healthy) (q : Request) : (s.answer q).2.Healthy := by
  cases q with
  | opening e =>
    obtain ⟨client, s', hanswer, hs', -⟩ := h.answer_opening e
    rw [hanswer]
    exact hs'
  | closing client =>
    obtain ⟨s', hanswer, hs', -⟩ := h.answer_closing client
    rw [hanswer]
    exact hs'
  | call client c =>
    obtain ⟨s', hanswer, hs', -⟩ := h.answer_call client c
    rw [hanswer]
    exact hs'

theorem Dialogue.AsksOnly.play_healthy {P : Request → Prop} {d : Dialogue α} (hd : d.AsksOnly P) {s : Server}
    (hs : s.Healthy) : (d.play Server.answer s).2.Healthy :=
  hd.play (I := Server.Healthy) (fun q _ _ hs => hs.answer q) hs

/-- An attempt that only reads leaves the registry alone, so its outcome is all there is to say. -/
theorem Attempt.AsksOnly.gives {a : Attempt α} {x : Except Failure α}
    (ha : Attempt.AsksOnly Request.IsReading a)
    (hx : ∀ s : Server, s.Healthy → s.registry = r → (Attempt.play Server.answer a s).1 = x) :
    a.Gives r x r := by
  intro s hs hr
  refine ⟨(Attempt.play Server.answer a s).2, ?_, Dialogue.AsksOnly.play_healthy ha hs, ?_⟩
  · rw [Attempt.play_run, ← hx s hs hr]
  · exact (Dialogue.AsksOnly.play_registry ha s).trans hr

namespace Snapshot

/-! ## Reading the catalog only reads -/

section Reading

variable [Json.Nesting] {P : Request → Prop} {session : Session}
  (hreading : ∀ c : Call, c.isReading = true → P (.call session.client c))
include hreading

/-- In a session, only reading calls of its client are made. -/
theorem readTypes_asks (group : String) (types : List String) : (readTypes session group types).AsksOnly P := by
  induction types with
  | nil => exact .done _
  | cons type types ih =>
    refine .bind (.say _ _ _) fun _ => .bind (Attempt.AsksOnly.call (hreading _ rfl)) fun x => ?_
    cases x with
    | error f => exact .done _
    | ok latest =>
      simp only
      cases Document.decode (StoredSchema.info latest).data with
      | error why =>
        simp only
        split
        · exact .bind (.say _ _ _) fun _ => .done _
        · exact .done _
      | ok table => exact .bind ih fun _ => .done _

theorem readGroup_asks (group : String) : (readGroup session group).AsksOnly P := by
  refine .bind (Attempt.AsksOnly.call (hreading _ rfl)) fun x => ?_
  cases x with
  | error f => exact .done _
  | ok schemas =>
    simp only
    split
    · exact .bind (.say _ _ _) fun _ => .done _
    · exact readTypes_asks hreading group _

/-- The groups are asked for one by one. -/
theorem readGroups_asks (groups : List String) : (readGroups session groups).AsksOnly P := by
  induction groups with
  | nil => exact .done _
  | cons group groups ih =>
    refine .bind (.say _ _ _) fun _ => .bind (readGroup_asks hreading group) fun out => ?_
    obtain ⟨entries, outcome⟩ := out
    cases outcome with
    | error f => exact .done _
    | ok goOn =>
      cases goOn with
      | false => exact .done _
      | true => exact .bind ih fun _ => .done _

theorem readAll_asks : (readAll session).AsksOnly P := by
  refine .bind (Attempt.AsksOnly.call (hreading _ rfl)) fun x => ?_
  cases x with
  | error f => exact .done _
  | ok groups =>
    simp only
    split
    · exact .bind (.say _ _ _) fun _ => .done _
    · exact readGroups_asks hreading _

end Reading

/-- Reading the catalog asks for nothing that would change it. -/
theorem build_asks [Json.Nesting] (e : Endpoint) : Attempt.AsksOnly Request.IsReading (build e) := by
  refine Dialogue.AsksOnly.bind (asksOnly_inSession trivial (fun _ => trivial) fun _ => ?_) fun out => ?_
  · exact readAll_asks fun _ hc => hc
  obtain ⟨entries, outcome⟩ := out
  cases outcome with
  | ok _ => exact .done _
  | error f =>
    simp only
    split
    · exact .bind (.say _ _ _) fun _ => .done _
    · split
      · exact .bind (.say _ _ _) fun _ => .done _
      · exact .done _

end Snapshot

/-! ## What is listed -/

section Listed

variable [Json.Nesting]

/-- The entries that are listed with nothing wrong: those of the positions before the first that has none. -/
def Registry.listing (r : Registry) : List Entry :=
  ((r.positions.map r.entryAt).takeWhile Option.isSome).reduceOption

theorem Registry.listing_eq {es : List Entry}
    (h : es.map some = (r.positions.map r.entryAt).takeWhile Option.isSome) : r.listing = es := by
  rw [Registry.listing, ← h, List.reduceOption, List.filterMap_map]
  exact List.filterMap_some

/-- What comes of reading the catalog with nothing wrong. -/
def Registry.listed (r : Registry) : Except Failure Snapshot :=
  Snapshot.concluded r.listing (Snapshot.endOf r r.positions)

/-- The document of the first position without an entry nests too deep. -/
def Registry.IsTooDeep (r : Registry) : Prop := ∃ why, r.FailsAt why

/-- The listing comes of it, unless that document nests too deep. -/
theorem Registry.listed_cases (r : Registry) :
    ¬r.IsTooDeep ∧ r.listed = .ok ⟨r.listing⟩ ∨
      r.IsTooDeep ∧ ∃ why, r.listed = .error (.unreadable why) ∧ why.kind = .tooDeep := by
  by_cases hdeep : r.IsTooDeep
  · obtain ⟨why, hwhy⟩ := id hdeep
    exact .inr ⟨hdeep, why, (Snapshot.concluded_endOf r r.listing).2 why hwhy, hwhy.2⟩
  · exact .inl ⟨hdeep, (Snapshot.concluded_endOf r r.listing).1 fun why hwhy => hdeep ⟨why, hwhy⟩⟩

/-- Where every position is worth an entry, these are listed. -/
theorem Registry.listing_of_whole {es : List Entry} (h : r.positions.map r.entryAt = es.map some) :
    r.listing = es := by
  refine listing_eq ?_
  rw [h, ← List.append_nil (es.map some), Snapshot.takeWhile_append]
  rfl

/-- So is reading them all: there is a listing. -/
theorem Registry.listed_of_whole {es : List Entry} (h : r.positions.map r.entryAt = es.map some) :
    r.listed = .ok ⟨es⟩ := by
  rw [listed, listing_of_whole h, Snapshot.endOf_of_whole h]
  rfl

theorem Registry.not_isTooDeep_of_whole {es : List Entry} (h : r.positions.map r.entryAt = es.map some) :
    ¬r.IsTooDeep := by
  rcases r.listed_cases with ⟨hdeep, -⟩ | ⟨-, why, hlisted, -⟩
  · exact hdeep
  · cases (listed_of_whole h).symm.trans hlisted

/-- Reading the catalog gives its listing. -/
theorem Snapshot.build_gives (e : Endpoint) (r : Registry) : (build e).Gives r r.listed r := by
  refine Attempt.AsksOnly.gives (build_asks e) fun s hs hr => ?_
  obtain ⟨es, hbuild, hes⟩ := build_of_healthy e hs
  rw [hr] at hbuild hes
  rw [Registry.listed, Registry.listing_eq hes]
  exact hbuild

/-- Every listed entry is that of a position. -/
theorem Registry.exists_of_mem_listing {e : Entry} (h : e ∈ r.listing) :
    ∃ p ∈ r.positions, r.entryAt p = some e :=
  List.mem_map.mp ((List.takeWhile_sublist _).subset (List.reduceOption_mem_iff.mp h))

/-- A listed table was read from a document, or stands for a group. -/
theorem Registry.origin_of_mem_listing {e : Entry} (h : e ∈ r.listing) :
    (∃ name, e = .ofNamespace name) ∨ ∃ d t, Document.decode d = .ok t ∧ e = .ofTable t := by
  obtain ⟨p, -, hp⟩ := exists_of_mem_listing h
  cases p with
  | group name => exact .inl ⟨name, (Option.some.inj hp).symm⟩
  | table group type =>
    obtain ⟨s, -, hs⟩ := Option.bind_eq_some_iff.mp hp
    obtain ⟨t, ht, rfl⟩ := Option.map_eq_some_iff.mp hs
    exact .inr ⟨_, t, eq_ok_of_toOption ht, rfl⟩

end Listed

end SchemaCatalog
