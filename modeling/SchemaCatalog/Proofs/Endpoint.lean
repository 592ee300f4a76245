/-
  What the location of a registry says about its address.

  1. **Read.**  An address is read off the authority of a location, so it is the same whatever path, query or
     fragment is written behind it (`hostPort?_append`).  A location that is a text is read as an address or
     refused as a setting, and nothing else comes of it.

  2. **Shown and read again.**  An address is shown as a location, and the host is shown as it is, without
     brackets.  Read again, it is the same address if the host is bare, and none at all otherwise: the port
     would start at the first colon (`hostPort?_shown`).  All addresses of version 6 are of the second kind.
-/
import SchemaCatalog.Endpoint
import SchemaCatalog.Proofs.Uri.Host
import SchemaCatalog.Proofs.Value.Named

namespace SchemaCatalog.Endpoint

open Uri (IsHost IsBare)

variable {properties : Members} {uri host : String} {port : Nat}

/-! ## Host and port of a location -/

theorem hostPort?_eq_some_iff {s : List Char} :
    hostPort? s = some (host, port) ↔
      ∃ u, Uri.parse? s = some u ∧ (Uri.hostPort u.authority).1 ≠ [] ∧
        Uri.port? (Uri.hostPort u.authority).2 = some port ∧
          Uri.lowerHost (Uri.hostPort u.authority).1 = host := by
  rw [hostPort?]
  cases Uri.parse? s with
  | none => simp
  | some u =>
    simp only [Option.some.injEq, exists_eq_left']
    cases hhost : (Uri.hostPort u.authority).1 with
    | nil => simp
    | cons c cs =>
      rw [List.isEmpty_cons, if_neg Bool.false_ne_true, Option.map_eq_some_iff]
      simp [eq_comm]

/-- What follows the authority of a location says nothing about the address. -/
theorem hostPort?_append {s : List Char} (h : hostPort? s = some (host, port)) {c : Char}
    (hc : Uri.endsAuthority c = true) (t : List Char) : hostPort? (s ++ c :: t) = some (host, port) := by
  obtain ⟨u, hparse, hhost, hport, hlower⟩ := hostPort?_eq_some_iff.mp h
  have hcolon : ':' ∈ u.authority := Uri.colon_mem_of_hostPort (Uri.ne_nil_of_port? hport).1
  obtain ⟨v, hparse', hauthority⟩ := Uri.parse?_append hparse hcolon hc t
  rw [hostPort?_eq_some_iff]
  exact ⟨v, hparse', by rw [hauthority]; exact ⟨hhost, hport, hlower⟩⟩

/-- A host that was read is one in small letters, and its port fits. -/
theorem isHost_of_hostPort? {s : List Char} (h : hostPort? s = some (host, port)) :
    IsHost host.toList ∧ Uri.lowerHost host.toList = host ∧ port ≤ 65535 := by
  obtain ⟨u, hparse, hhost, hport, rfl⟩ := hostPort?_eq_some_iff.mp h
  exact ⟨(Uri.isHost_of_parse? hparse hhost).lower, Uri.lowerHost_lowerHost _, (Uri.ne_nil_of_port? hport).2⟩

/-! ## Shown and read again -/

theorem toList_url (host : String) (port : Nat) (ns : Value) :
    (⟨.text host, port, ns⟩ : Endpoint).url.toList =
      "http".toList ++ ':' :: '/' :: '/' :: (host.toList ++ ':' :: Nat.toDigits 10 port) := by
  show ("http://" ++ host ++ ":" ++ port.repr).toList = _
  simp only [String.toList_append, Nat.toList_repr, List.append_assoc]
  rfl

/-- **Shown and read again.**  An address is the same again if its host is bare, and is refused if it is not. -/
theorem hostPort?_shown (h : IsHost host.toList) (hlower : Uri.lowerHost host.toList = host) (hport : port ≤ 65535)
    (ns : Value) :
    hostPort? (⟨.text host, port, ns⟩ : Endpoint).url.toList =
      if IsBare host.toList then some (host, port) else none := by
  have hdigits : ∀ d ∈ Nat.toDigits 10 port, d.isDigit = true := fun d hd =>
    Nat.isDigit_of_mem_toDigits (by decide) (by decide) hd
  obtain ⟨hinside, hvisible, hapart⟩ := h.glued hdigits
  have hscheme : Uri.isScheme "http".toList = true := by decide
  have hparse := Uri.parse?_glued hscheme hinside hvisible
  rw [hapart, Bool.and_true] at hparse
  rw [hostPort?, toList_url, hparse]
  by_cases hbrackets : '[' ∉ host.toList ∧ ']' ∉ host.toList
  · rw [if_pos ((Uri.bracketsAgree_glued hdigits h.unpaired).mpr hbrackets)]
    by_cases hcolon : ':' ∈ host.toList
    · have hnone := Uri.port?_eq_none_of_mem (Uri.hostPort_of_colon hdigits h.userless hbrackets.1 hcolon) rfl
      rw [if_neg fun hbare : IsBare _ => hbare.1 hcolon]
      simp only [hnone, Option.map_none, ite_self]
    · have hbare : IsBare host.toList := ⟨hcolon, hbrackets⟩
      rw [if_pos hbare]
      simp only [Uri.hostPort_glued hdigits h.userless hbare, Uri.port?_toDigits hport, hlower, Option.map_some,
        List.isEmpty_eq_false_iff.mpr h.ne_nil, Bool.false_eq_true, if_false]
  · rw [if_neg fun hagree => hbrackets ((Uri.bracketsAgree_glued hdigits h.unpaired).mp hagree),
      if_neg fun hbare : IsBare _ => hbrackets hbare.2]

/-! ## The properties of a catalog -/

theorem ofProperties_found (hfound : properties.find? "uri" = some (.text uri)) :
    ofProperties properties =
      match hostPort? uri.toList with
      | none => .error (.invalidEndpoint (.text uri))
      | some (host, port) => .ok ⟨.text host, port, properties.findD "registry.namespace" (.text "default")⟩ := by
  rw [ofProperties, hfound]
  cases hparts : hostPort? uri.toList with
  | none => simp only [uriText, hparts]
  | some parts => simp only [uriText, hparts, Uri.part_text, String.ofList_toList]

/-- An address has the host and the port of its location. -/
theorem hostPort?_of_ofProperties {e : Endpoint} (hfound : properties.find? "uri" = some (.text uri))
    (hread : ofProperties properties = .ok e) :
    ∃ host port, hostPort? uri.toList = some (host, port) ∧
      e = ⟨.text host, port, properties.findD "registry.namespace" (.text "default")⟩ := by
  rw [ofProperties_found hfound] at hread
  cases hparts : hostPort? uri.toList with
  | none =>
    rw [hparts] at hread
    cases hread
  | some parts =>
    rw [hparts] at hread
    exact ⟨parts.1, parts.2, rfl, (Except.ok.inj hread).symm⟩

theorem ofProperties_append {e : Endpoint} (hfound : properties.find? "uri" = some (.text uri))
    (hread : ofProperties properties = .ok e) {s : String} (hs : s.toList.head? ∈ [some '/', some '?', some '#']) :
    ofProperties (properties.put (.text "uri") (.text (uri ++ s))) = .ok e := by
  obtain ⟨host, port, hparts, rfl⟩ := hostPort?_of_ofProperties hfound hread
  obtain ⟨c, cs, hcs, hc⟩ : ∃ c cs, s.toList = c :: cs ∧ Uri.endsAuthority c = true := by
    cases hcs : s.toList with
    | nil => simp [hcs] at hs
    | cons c cs =>
      refine ⟨c, cs, rfl, ?_⟩
      rw [hcs] at hs
      simp only [List.head?_cons, List.mem_cons, Option.some.injEq, List.not_mem_nil, or_false] at hs
      rcases hs with rfl | rfl | rfl <;> rfl
  have hparts' : hostPort? (uri ++ s).toList = some (host, port) := by
    rw [String.toList_append, hcs]
    exact hostPort?_append hparts hc cs
  have hns : (properties.put (.text "uri") (.text (uri ++ s))).findD "registry.namespace" (.text "default") =
      properties.findD "registry.namespace" (.text "default") := by
    rw [Members.findD, Members.findD, Members.find?, Members.find?, Members.get?_put_of_ne (by decide)]
  rw [ofProperties_found (Members.get?_put_text _ _ _), hparts', hns]

/-- **A location that is a text is an address or refused as a setting.**  An address has a host and a port that
fits.  It is the same when a path, a query or a fragment is added to the location. -/
theorem ofProperties_of_text (hfound : properties.find? "uri" = some (.text uri)) :
    ((∃ host port ns, ofProperties properties = .ok ⟨.text host, port, ns⟩ ∧ host ≠ "" ∧ port ≤ 65535) ∨
      ∃ f, ofProperties properties = .error f ∧ f.kind = .configuration) ∧
    ∀ e, ofProperties properties = .ok e → ∀ s : String, s.toList.head? ∈ [some '/', some '?', some '#'] →
      ofProperties (properties.put (.text "uri") (.text (uri ++ s))) = .ok e := by
  refine ⟨?_, fun e he s hs => ofProperties_append hfound he hs⟩
  have hread := ofProperties_found hfound
  cases hparts : hostPort? uri.toList with
  | none =>
    rw [hparts] at hread
    exact .inr ⟨_, hread, rfl⟩
  | some parts =>
    rw [hparts] at hread
    obtain ⟨hhost, -, hport⟩ := isHost_of_hostPort? hparts
    refine .inl ⟨parts.1, parts.2, _, hread, ?_, hport⟩
    intro hempty
    exact hhost.ne_nil (String.toList_eq_nil_iff.mpr hempty)

theorem ofProperties_of_text_localhost :
    ∃ (properties : Members) (e : Endpoint), properties.find? "uri" = some (.text "http://localhost:9092") ∧
      ofProperties properties = .ok e ∧
      ofProperties (properties.put (.text "uri") (.text ("http://localhost:9092" ++ "/catalog?x=[#@"))) =
        .ok e := by
  let properties : Members := [(.text "uri", .text "http://localhost:9092")]
  have hparts : hostPort? "http://localhost:9092".toList = some ("localhost", 9092) := by decide +kernel
  have hread : ofProperties properties = .ok ⟨.text "localhost", 9092, .text "default"⟩ := by
    rw [ofProperties_found rfl, hparts]
    rfl
  exact ⟨properties, _, rfl, hread, (ofProperties_of_text rfl).2 _ hread "/catalog?x=[#@" (by decide)⟩

/-- **An address that is shown is read again if its host is bare.**  Its host and port are the same then; the
location that shows any other host is refused. -/
theorem ofProperties_url {again : Members} {e : Endpoint} (hfound : properties.find? "uri" = some (.text uri))
    (hread : ofProperties properties = .ok e) (hagain : again.find? "uri" = some (.text e.url)) :
    ∃ host, e.host = .text host ∧
      (IsBare host.toList →
        ofProperties again = .ok ⟨e.host, e.port, again.findD "registry.namespace" (.text "default")⟩) ∧
      (¬IsBare host.toList → ofProperties again = .error (.invalidEndpoint (.text e.url))) := by
  obtain ⟨host, port, hparts, rfl⟩ := hostPort?_of_ofProperties hfound hread
  obtain ⟨hhost, hlower, hport⟩ := isHost_of_hostPort? hparts
  have hresult := ofProperties_found hagain
  rw [hostPort?_shown hhost hlower hport] at hresult
  refine ⟨host, rfl, fun hbare => ?_, fun hbare => ?_⟩
  · rw [if_pos hbare] at hresult
    exact hresult
  · rw [if_neg hbare] at hresult
    exact hresult

theorem ofProperties_url_localhost :
    ∃ (properties again : Members) (e : Endpoint),
      properties.find? "uri" = some (.text "http://user@LocalHost:09092/") ∧ ofProperties properties = .ok e ∧
      again.find? "uri" = some (.text e.url) ∧ ofProperties again = .ok e := by
  let properties : Members := [(.text "uri", .text "http://user@LocalHost:09092/")]
  let e : Endpoint := ⟨.text "localhost", 9092, .text "default"⟩
  let again : Members := [(.text "uri", .text e.url)]
  have hparts : hostPort? "http://user@LocalHost:09092/".toList = some ("localhost", 9092) := by decide +kernel
  have hread : ofProperties properties = .ok e := by
    rw [ofProperties_found rfl, hparts]
    rfl
  have hagain : again.find? "uri" = some (.text e.url) := rfl
  obtain ⟨host, hhost, hbare, -⟩ := ofProperties_url rfl hread hagain
  cases hhost
  exact ⟨properties, again, e, rfl, hread, hagain, hbare (by decide)⟩

/-- An address of version 6 is shown as a location that is refused. -/
theorem not_always_read_again :
    ¬∀ (properties again : Members) (uri : String) (e : Endpoint), properties.find? "uri" = some (.text uri) →
      ofProperties properties = .ok e → again.find? "uri" = some (.text e.url) →
      ∃ e', ofProperties again = .ok e' ∧ e'.host = e.host ∧ e'.port = e.port := by
  intro hagain
  let e : Endpoint := ⟨.text "::1", 9092, .text "default"⟩
  let properties : Members := [(.text "uri", .text "http://[::1]:9092")]
  let again : Members := [(.text "uri", .text e.url)]
  have hparts : hostPort? "http://[::1]:9092".toList = some ("::1", 9092) := by decide +kernel
  have hread : ofProperties properties = .ok e := by
    rw [ofProperties_found rfl, hparts]
    rfl
  have hnone : hostPort? e.url.toList = none := by decide +kernel
  have hshown : again.find? "uri" = some (.text e.url) := rfl
  obtain ⟨e', he', -⟩ := hagain properties again _ e rfl hread hshown
  rw [ofProperties_found hshown, hnone] at he'
  cases he'

end SchemaCatalog.Endpoint
