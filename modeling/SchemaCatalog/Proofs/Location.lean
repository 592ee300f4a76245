/-
  The bucket and the path of a location, put together again.

  What a location is split into has lost its scheme, its query and its fragment, and every character that is
  ignored; what is left is a bucket that ends where a path starts, and a path that ends nowhere (`IsPlace`).
  Behind any scheme these two are split again in the same way, so splitting keeps all that it could find a
  second time (`split?_glued`).

  For locations that are texts the same is said of `ofValue`: there is one way to be refused, and what is
  accepted is canonical (`ofValue_canonical`).
-/
import SchemaCatalog.Location
import SchemaCatalog.Proofs.Uri.Parts

namespace SchemaCatalog.Location

open Uri (cleaned cutScheme cutAuthority endsAuthority endsPath isIgnored isScheme bracketsAgree staysApart)

/-- A bucket and a path as a location is split into them. -/
structure IsPlace (bucket path : List Char) : Prop where
  bucket_ne_nil : bucket ≠ []
  bucket_inside : ∀ c ∈ bucket, endsAuthority c = false
  brackets : bracketsAgree bucket = true
  apart : staysApart bucket = true
  path_start : ∃ rest, path = '/' :: rest
  path_inside : ∀ c ∈ path, endsPath c = false
  visible : ∀ c ∈ bucket ++ path, isIgnored c = false

/-! ## What a location is split into -/

/-- What a location is split into are the authority and the path that are found in it. -/
theorem parse?_of_split? {s bucket path : List Char} (h : split? s = some (bucket, path)) :
    ∃ scheme, Uri.parse? s = some ⟨scheme, bucket, path⟩ := by
  unfold split? at h
  split at h
  · cases h
  · rename_i u hu
    split at h
    · cases h
    · cases h
      exact ⟨u.scheme, hu⟩

/-- What is left before a query or a fragment starts with a slash, or it is nothing. -/
theorem exists_path {s : List Char} (hstart : ∀ c ∈ s.head?, endsAuthority c = true)
    (hne : s.takeWhile (fun c => !endsPath c) ≠ []) :
    ∃ rest, s.takeWhile (fun c => !endsPath c) = '/' :: rest := by
  cases s with
  | nil => exact absurd rfl hne
  | cons c s =>
    have hc : endsPath c = false := by
      cases hc : endsPath c with
      | false => rfl
      | true => exact absurd (List.takeWhile_cons_of_neg (by simp [hc])) hne
    have hslash : c = '/' := by
      have hends := hstart c rfl
      simp only [endsAuthority, endsPath, Bool.or_eq_true, Bool.or_eq_false_iff, beq_iff_eq,
        beq_eq_false_iff_ne] at hends hc
      rcases hends with (hends | hends) | hends
      · exact hends
      · exact absurd hends hc.1
      · exact absurd hends hc.2
    exact ⟨_, by rw [List.takeWhile_cons_of_pos (by simp [hc]), hslash]⟩

theorem isPlace_of_split? {s bucket path : List Char} (h : split? s = some (bucket, path)) :
    IsPlace bucket path := by
  unfold split? Uri.parse? at h
  rcases hscheme : cutScheme (cleaned s) with ⟨scheme, s₁⟩
  rcases hauthority : cutAuthority s₁ with ⟨authority, s₂⟩
  simp only [hscheme, hauthority] at h
  split at h
  · cases h
  rename_i u hparsed
  split at hparsed
  · rename_i hagree
    cases hparsed
    split at h
    · cases h
    · rename_i hfull
      cases h
      simp only [Bool.or_eq_true, List.isEmpty_iff, not_or] at hfull
      rw [Bool.and_eq_true] at hagree
      obtain ⟨rfl, hinside, hstart⟩ := Uri.cutAuthority_eq hauthority hfull.1.2
      -- everything that is left has been in the cleaned text
      have hvisible : ∀ c ∈ authority ++ s₂, isIgnored c = false := by
        intro c hc
        have hrest : c ∈ (cutScheme (cleaned s)).2 := by
          rw [hscheme]
          exact List.mem_cons_of_mem _ (List.mem_cons_of_mem _ hc)
        exact Uri.not_isIgnored_of_mem_cleaned (Uri.mem_of_mem_cutScheme hrest)
      exact {
        bucket_ne_nil := hfull.1.2
        bucket_inside := hinside
        brackets := hagree.1
        apart := hagree.2
        path_start := exists_path hstart hfull.2
        path_inside := fun c hc => by simpa using List.mem_takeWhile_imp hc
        visible := fun c hc => hvisible c (by
          rcases List.mem_append.mp hc with hc | hc
          · exact List.mem_append_left _ hc
          · exact List.mem_append_right _ ((List.takeWhile_prefix _).subset hc)) }
  · cases hparsed

/-- The parts of a location are texts, or both are bytes. -/
theorem texts_or_bytes {v : Value} {place : Location} (h : ofValue v = .ok place) :
    (∃ bucket path, place = ⟨.text bucket, .text path⟩) ∨ ∃ bucket path, place = ⟨.bytes bucket, .bytes path⟩ := by
  unfold ofValue at h
  split at h
  · cases h
    cases v with
    | bytes bs => exact .inr ⟨_, _, rfl⟩
    | _ => exact .inl ⟨_, _, rfl⟩
  · cases h

/-! ## Put together again -/

/-- **Splitting again.**  A bucket and a path that a location was split into are split off behind any scheme. -/
theorem split?_glued {s scheme bucket path : List Char} (h : split? s = some (bucket, path))
    (hscheme : isScheme scheme = true) :
    split? (scheme ++ ':' :: '/' :: '/' :: (bucket ++ path)) = some (bucket, path) := by
  obtain ⟨hne, hbucket, hagree, hapart, ⟨rest, rfl⟩, hpath, hvisible⟩ := isPlace_of_split? h
  have hcleaned := Uri.cleaned_glued hscheme hvisible
  have hcut : cutAuthority ('/' :: '/' :: (bucket ++ '/' :: rest)) = _ :=
    Uri.cutAuthority_glued hbucket fun c hc => by rw [← Option.mem_some_iff.mp hc]; rfl
  have hwhole : ('/' :: rest).takeWhile (fun c => !endsPath c) = '/' :: rest :=
    List.takeWhile_eq_self_iff.mpr fun c hc => by rw [hpath c hc]; rfl
  have hscheme_ne : scheme.map Char.toLower ≠ [] := by
    obtain ⟨⟨c, cs, rfl, -⟩, -⟩ := Uri.scheme_visible hscheme
    exact List.cons_ne_nil _ _
  have hpath_ne : '/' :: rest ≠ [] := List.cons_ne_nil _ _
  simp only [split?, Uri.parse?, hcleaned, Uri.cutScheme_glued hscheme, hcut, hagree, hapart, hwhole,
    Bool.and_self, if_true, List.isEmpty_eq_false_iff.mpr hscheme_ne, List.isEmpty_eq_false_iff.mpr hne,
    List.isEmpty_eq_false_iff.mpr hpath_ne, Bool.or_self, Bool.false_eq_true, if_false]

/-! ## Locations that are texts -/

/-- A text that is split into two is a location. -/
theorem ofValue_text {s bucket path : String} (h : split? s.toList = some (bucket.toList, path.toList)) :
    ofValue (.text s) = .ok ⟨.text bucket, .text path⟩ := by
  rw [ofValue, Uri.textOf?, Option.bind_some, h]
  simp only [Uri.part_text, String.ofList_toList]

/-- A text is a location with texts as its parts, or it is refused. -/
theorem ofValue_text_cases (s : String) :
    ofValue (.text s) = .error (.invalidLocation (.text s)) ∨
      ∃ bucket path : String, split? s.toList = some (bucket.toList, path.toList) ∧
        ofValue (.text s) = .ok ⟨.text bucket, .text path⟩ := by
  cases hsplit : split? s.toList with
  | none => exact .inl (by rw [ofValue, Uri.textOf?, Option.bind_some, hsplit])
  | some parts =>
    refine .inr ⟨String.ofList parts.1, String.ofList parts.2, ?_, ?_⟩
    · rw [String.toList_ofList, String.toList_ofList]
    · refine ofValue_text ?_
      rw [hsplit, String.toList_ofList, String.toList_ofList]

theorem split?_of_ofValue {s bucket path : String} (h : ofValue (.text s) = .ok ⟨.text bucket, .text path⟩) :
    split? s.toList = some (bucket.toList, path.toList) := by
  obtain herror | ⟨bucket', path', hsplit, hok⟩ := ofValue_text_cases s
  · rw [herror] at h
    cases h
  · rw [hok] at h
    cases h
    exact hsplit

/-- **Splitting is canonical.**  A text is refused as a location, or it is split into a bucket and a path that hold
nothing at which a location is cut, and that are split off again behind any scheme. -/
theorem ofValue_canonical (s : String) :
    ofValue (.text s) = .error (.invalidLocation (.text s)) ∨
      ∃ bucket path : String, ofValue (.text s) = .ok ⟨.text bucket, .text path⟩ ∧
        bucket ≠ "" ∧ (∀ c ∈ bucket.toList, c ∉ ['/', '?', '#', '\t', '\r', '\n']) ∧
        path.toList.head? = some '/' ∧ (∀ c ∈ path.toList, c ∉ ['?', '#', '\t', '\r', '\n']) ∧
        ∀ (c : Char) (cs : List Char), c.isAlpha = true →
          (∀ d ∈ cs, d.isAlphanum = true ∨ d ∈ ['+', '-', '.']) →
          ofValue (.text (String.ofList (c :: cs) ++ "://" ++ bucket ++ path)) =
            .ok ⟨.text bucket, .text path⟩ := by
  refine (ofValue_text_cases s).imp_right ?_
  rintro ⟨bucket, path, hsplit, hok⟩
  have hplace := isPlace_of_split? hsplit
  refine ⟨bucket, path, hok, ?_, fun c hc => ?_, ?_, fun c hc => ?_, fun c cs hc hcs => ?_⟩
  · rintro rfl
    exact hplace.bucket_ne_nil String.toList_empty
  · have hinside := hplace.bucket_inside c hc
    have hvisible := hplace.visible c (List.mem_append_left _ hc)
    simp only [endsAuthority, isIgnored, Bool.or_eq_false_iff, beq_eq_false_iff_ne] at hinside hvisible
    simp [hinside, hvisible]
  · obtain ⟨rest, hrest⟩ := hplace.path_start
    rw [hrest, List.head?_cons]
  · have hinside := hplace.path_inside c hc
    have hvisible := hplace.visible c (List.mem_append_right _ hc)
    simp only [endsPath, isIgnored, Bool.or_eq_false_iff, beq_eq_false_iff_ne] at hinside hvisible
    simp [hinside, hvisible]
  · refine ofValue_text ?_
    have hglued : (String.ofList (c :: cs) ++ "://" ++ bucket ++ path).toList =
        (c :: cs) ++ ':' :: '/' :: '/' :: (bucket.toList ++ path.toList) := by
      simp [String.toList_append]
    rw [hglued]
    exact split?_glued hsplit (Uri.isScheme_of_letters hc hcs)

/-- A location with a user, an address of version 6, a port, blanks in front and a line end inside: its parts are
found again behind another scheme. -/
theorem ofValue_canonical_address :
    ∃ bucket path : String,
      ofValue (.text " S3://u@[::1]:9/da\nta?x#y") = .ok ⟨.text bucket, .text path⟩ ∧
      ofValue (.text ("gs+v1" ++ "://" ++ bucket ++ path)) = .ok ⟨.text bucket, .text path⟩ := by
  have hread : split? " S3://u@[::1]:9/da\nta?x#y".toList = some ("u@[::1]:9".toList, "/data".toList) := by
    decide +kernel
  obtain herror | ⟨bucket, path, hok, -, -, -, -, hagain⟩ := ofValue_canonical " S3://u@[::1]:9/da\nta?x#y"
  · rw [ofValue_text hread] at herror
    cases herror
  · exact ⟨bucket, path, hok, hagain 'g' ['s', '+', 'v', '1'] (by decide) (by simp)⟩

end SchemaCatalog.Location
