/-
  Where a document says that its table lies.

  The sources of a document have one bucket with one path in it.  Both come from the location as it is read,
  without the tabs and line ends in it: the bucket is the authority between the two slashes and the path, and
  what an authority is made of is said in `Uri.IsParted`.  So a bucket is the name of a host only as long as
  nobody writes a user in front of it or a port behind it.

  Nothing is asked of the other parts of a document.  It may hold what cannot be read back as it was, but its
  sources are found in it (`hasSources_of_encode`).
-/
import SchemaCatalog.Proofs.Document.Shape
import SchemaCatalog.Proofs.Uri.Authority

namespace SchemaCatalog.Document

open Uri (hostPart portPart)

section

variable [Json.Nesting]

/-- The sources that stand in the comment of a document. -/
def HasSources (d : String) (sources : Value) : Prop :=
  ∃ (root : Members) (comment : String) (metadata : Members), Json.read d = .ok (.object root) ∧
    root.find? "$comment" = some (.text comment) ∧ Json.read comment = .ok (.object metadata) ∧
    metadata.find? "sources" = some sources

/-- The sources of a document are those of its location. -/
theorem hasSources_of_encode {database tablename v : Value} {columns : List Column} {options : Members}
    {d : String}
    (h : encode database tablename columns options v = .ok d) :
    ∃ bucket path, Location.ofValue v = .ok ⟨.text bucket, .text path⟩ ∧ HasSources d (sourcesAt bucket path) := by
  obtain ⟨format, place, comment, members, -, hplace, hcomment, -, hwritten⟩ := written_of_encode h
  obtain ⟨n, bucket, path, dt, tt, header, field, record, rfl, -, -, -, -, -, hmetadata⟩ :=
    spells_metadata hplace hcomment
  obtain ⟨m, properties, -, hroot⟩ := exists_spells_root hwritten
  refine ⟨bucket, path, hplace, _, comment, _,
    read_of_nodup hroot (by simp [rootTrees, commentKey, columnsKey]), ?_,
    read_of_nodup hmetadata (by simp [commentTrees]), ?_⟩
  · simp only [rootTrees, commentKey, Json.Tree.listed_cons, Value.ofPoints_string, Members.find?,
      Members.get?_cons_text, Json.Tree.value_text, if_true]
  · simp only [commentTrees, Json.Tree.listed_cons, Value.ofPoints_string]
    simp [Members.find?, Members.get?_cons_text, value_sources]

/-- **The bucket is the authority.**  Whatever a location is accepted with between its slashes is the bucket,
and the single key of the sources of its documents: the user part, the host and the port.  It is the host alone
exactly if nothing else is written there. -/
theorem bucket_of_location {l : String} {place : Location} (h : Location.ofValue (.text l) = .ok place) :
    ∃ u, Uri.parse? l.toList = some u ∧
      place = ⟨.text (String.ofList u.authority), .text (String.ofList u.path)⟩ ∧
      Uri.IsParted u.authority ∧
      (u.authority = hostPart u.authority ↔ '@' ∉ u.authority ∧ portPart u.authority = []) ∧
      ∀ (database tablename : Value) (columns : List Column) (options : Members) (d : String),
        encode database tablename columns options (.text l) = .ok d →
        HasSources d (.object [(.text (String.ofList u.authority), .list [.text (String.ofList u.path)])]) := by
  obtain herror | ⟨bucket, path, hsplit, hok⟩ := Location.ofValue_text_cases l
  · rw [herror] at h
    cases h
  rw [hok] at h
  cases h
  obtain ⟨scheme, hparse⟩ := Location.parse?_of_split? hsplit
  obtain ⟨-, hbrackets, -⟩ := Uri.authority_of_parse? hparse
  refine ⟨_, hparse, ?_, Uri.isParted hbrackets, Uri.eq_hostPart_iff,
    fun database tablename columns options d hd => ?_⟩
  · simp only [String.ofList_toList]
  · obtain ⟨bucket', path', hplace, hsources⟩ := hasSources_of_encode hd
    rw [hok] at hplace
    cases hplace
    simpa only [String.ofList_toList, sourcesAt] using hsources

end

section

open Json.Usual

/-- A user and a port go into the bucket, and into the sources of a document. -/
theorem bucket_of_location_user :
    ∃ d, Location.ofValue (.text "s3://user@mybucket:9000/orders/") =
        .ok ⟨.text "user@mybucket:9000", .text "/orders/"⟩ ∧
      encode (.text "sales") (.text "orders") [] [(.text "format", .text "csv")]
        (.text "s3://user@mybucket:9000/orders/") = .ok d ∧
      HasSources d (.object [(.text "user@mybucket:9000", .list [.text "/orders/"])]) := by
  have hsplit : Location.split? "s3://user@mybucket:9000/orders/".toList =
      some ("user@mybucket:9000".toList, "/orders/".toList) := by decide +kernel
  have hplace := Location.ofValue_text hsplit
  have hsome : (encode (.text "sales") (.text "orders") [] [(.text "format", .text "csv")]
      (.text "s3://user@mybucket:9000/orders/")).toOption.isSome = true := by decide +kernel
  cases hd : encode (.text "sales") (.text "orders") [] [(.text "format", .text "csv")]
      (.text "s3://user@mybucket:9000/orders/") with
  | error e => rw [hd] at hsome; cases hsome
  | ok d =>
    obtain ⟨u, -, hparts, -, -, hsources⟩ := bucket_of_location hplace
    obtain ⟨hbucket, hpath⟩ := Location.mk.inj hparts
    have hstored := hsources _ _ _ _ _ hd
    rw [← Value.text.inj hbucket, ← Value.text.inj hpath] at hstored
    exact ⟨d, hplace, rfl, hstored⟩

end

/-- The host of that location is `mybucket`. -/
theorem bucket_not_always_host :
    ¬∀ (l : String) (place : Location) (u : Uri), Location.ofValue (.text l) = .ok place →
      Uri.parse? l.toList = some u → place.bucket = .text (String.ofList (hostPart u.authority)) := by
  intro hhost
  have hsplit : Location.split? "s3://user@mybucket:9000/orders/".toList =
      some ("user@mybucket:9000".toList, "/orders/".toList) := by decide +kernel
  obtain ⟨scheme, hparse⟩ := Location.parse?_of_split? hsplit
  have hbucket := hhost _ _ _ (Location.ofValue_text hsplit) hparse
  have hpart : hostPart "user@mybucket:9000".toList = "mybucket".toList := by decide +kernel
  rw [hpart, String.ofList_toList] at hbucket
  exact absurd (Value.text.inj hbucket) (by decide)

end SchemaCatalog.Document
