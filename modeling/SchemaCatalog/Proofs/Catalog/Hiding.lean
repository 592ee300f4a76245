/-
  What is seen of a catalog while its registry may be lost.

  Whoever looks for a namespace or a table, or lists the namespaces, asks for the groups of the registry and at
  most for the schemas of one of them.  `Hides` says what may strike then: the registry is out of reach at any
  of these requests, or a group is gone when its schemas are asked for.  Each request is answered by the truth
  about one registry, or the look is lost (`Reveals`), and a look that is lost is answered as one at an empty
  registry would be: there are no namespaces, and there is no such namespace or table.

  So a fault can hide what is there, all of it at once, but it never shows what is not there.
-/
import SchemaCatalog.Proofs.Catalog.Spelling
import SchemaCatalog.Proofs.Failing
import SchemaCatalog.Proofs.Inner

namespace SchemaCatalog

variable {α β : Type} {r : Registry} {Q : Failure → Prop}

/-! ## What may strike -/

/-- A failure of a client by which the registry is out of reach. -/
def Failure.IsOutage (f : Failure) : Prop := f.kind.isA .system ∨ f.kind.isA .registryUnreachable

/-- An outage is told as a registry out of reach. -/
theorem Failure.IsOutage.told {f : Failure} (h : f.IsOutage) (e : Endpoint) :
    (e.told f).kind.isA .registryUnreachable = true := by
  unfold Endpoint.told
  split
  · rfl
  · rename_i hsystem
    exact h.resolve_left hsystem

/-- What may strike while a catalog is looked at.  What strikes calls that a look does not make is left open. -/
def Hides : Point → Failure → Prop
  | .opening, f | .listGroups, f | .eachGroup, f => f.IsOutage
  | .getSchemas, f | .eachSchema, f => f.IsLoss
  | .closing, _ => False
  | _, _ => True

theorem isOutage_refused : Server.refused.IsOutage := .inl rfl

theorem isOutage_of_listing {f : Failure} (h : Server.Raises Hides .listGroups f) : f.IsOutage := by
  obtain rfl | ⟨point, hpoint, hf⟩ := h
  · exact isOutage_refused
  · rcases List.mem_pair.mp hpoint with rfl | rfl <;> exact hf

theorem isLoss_of_reading {group : String} {f : Failure} (h : Server.Raises Hides (.getSchemas group) f) :
    f.IsLoss := by
  obtain rfl | ⟨point, hpoint, hf⟩ := h
  · exact Server.isLoss_refused
  · rcases List.mem_pair.mp hpoint with rfl | rfl <;> exact hf

/-! ## Looks that may be lost -/

/-- The attempt leaves the registry as it is, and ends with the truth or fails as `Q` says. -/
abbrev Attempt.Reveals (Q : Failure → Prop) (a : Attempt α) (r : Registry) (truth : α) : Prop :=
  a.Ends Hides r fun x r' => r' = r ∧ (x = .ok truth ∨ ∃ f, x = .error f ∧ Q f)

namespace Attempt.Reveals

theorem mono {Q' : Failure → Prop} {a : Attempt α} {truth : α} (h : Reveals Q a r truth) (hQ : ∀ f, Q f → Q' f) :
    Reveals Q' a r truth :=
  Dialogue.Ends.mono h fun _ _ ⟨hr, hx⟩ => ⟨hr, hx.imp_right fun ⟨f, hf, hlost⟩ => ⟨f, hf, hQ f hlost⟩⟩

theorem pure (truth : α) (r : Registry) : Reveals Q (Pure.pure truth) r truth :=
  Dialogue.Ends.done ⟨rfl, .inl rfl⟩

theorem say_bind {level : Level} {source : Source} {text : String} {f : Unit → Attempt β} {truth : β}
    (hf : Reveals Q (f ()) r truth) : Reveals Q (Attempt.say level source text >>= f) r truth := hf

/-- One look after another: only the truth is looked at further. -/
theorem bind {a : Attempt α} {f : α → Attempt β} {x : α} {truth : β} (ha : Reveals Q a r x)
    (hf : Reveals Q (f x) r truth) : Reveals Q (a >>= f) r truth := by
  refine Attempt.Ends.bind ha ?_ ?_
  · rintro y r' ⟨rfl, hy | ⟨f', hf', -⟩⟩
    · cases hy
      exact hf
    · cases hf'
  · rintro e r' ⟨rfl, he | hlost⟩
    · cases he
    · obtain ⟨f', hf', hlost⟩ := hlost
      cases hf'
      exact ⟨rfl, .inr ⟨e, rfl, hlost⟩⟩

/-- The groups are listed as they are, or the registry is out of reach. -/
theorem listGroups (session : Session) (r : Registry) :
    Reveals (fun f => f.kind.isA .registryUnreachable = true) (session.call .listGroups) r
      (r.groups.map fun g => (g.name, g.properties)) := by
  refine Dialogue.Ends.mono (Attempt.Ends.call session .listGroups) ?_
  rintro x r' (⟨y, hperform, rfl⟩ | ⟨⟨f, hf, rfl⟩, rfl⟩)
  · cases hperform
    exact ⟨rfl, .inl rfl⟩
  · exact ⟨rfl, .inr ⟨_, rfl, (isOutage_of_listing hf).told session.endpoint⟩⟩

/-- The schemas of a group that is there are listed as they are, or they are lost. -/
theorem getSchemas (session : Session) {name : String} {g : Group} (hg : r.group? name = some g) :
    Reveals Failure.TellsLoss (session.call (.getSchemas name)) r g.schemas := by
  refine Dialogue.Ends.mono (Attempt.Ends.call session (.getSchemas name)) ?_
  rintro x r' (⟨y, hperform, rfl⟩ | ⟨⟨f, hf, rfl⟩, rfl⟩)
  · rw [Registry.perform_getSchemas hg] at hperform
    cases hperform
    exact ⟨rfl, .inl rfl⟩
  · exact ⟨rfl, .inr ⟨_, rfl, (isLoss_of_reading hf).told session.endpoint⟩⟩

/-- A session shows what its body shows, unless it cannot be opened. -/
theorem attemptInSession {e : Endpoint} {body : Session → Attempt α} {truth : α}
    (hQ : ∀ f, f.kind.isA .registryUnreachable = true → Q f)
    (hbody : ∀ client, Reveals Q (body ⟨e, client⟩) r truth) :
    Reveals Q (SchemaCatalog.attemptInSession e body) r truth :=
  attemptInSession_ends (fun f (hf : f.IsOutage) => ⟨rfl, .inr ⟨_, rfl, hQ _ (hf.told e)⟩⟩)
    (fun _ hf => hf.elim) hbody

end Attempt.Reveals

/-! ## Handlers that answer -/

/-- The outcome is the truth or stands in for it, or it is a failure as `Q` says. -/
def Answered (Q : Failure → Prop) (truth instead : α) (x : Except Failure α) : Prop :=
  x = .ok truth ∨ x = .ok instead ∨ ∃ f, x = .error f ∧ Q f

theorem Attempt.Reveals.answered {a : Attempt α} {truth : α} (h : a.Reveals Q r truth) (instead : α) :
    a.Ends Hides r fun x _ => Answered Q truth instead x :=
  Dialogue.Ends.mono h fun _ _ ⟨_, hx⟩ => hx.imp_right .inr

namespace Attempt.Ends

/-- A log line and an answer. -/
theorem say_return (level : Level) (source : Source) (text : String) (a : α) :
    Ends Hides (do Attempt.say level source text; return a) r fun x _ => x = .ok a :=
  fun s hs _ => ⟨.ok a, s, rfl, hs, rfl⟩

/-- A handler that answers leaves the failures of other kinds. -/
theorem answered {kind : Kind} {handler : Failure → Attempt α} {a : Attempt α} {truth instead : α}
    (ha : Ends Hides a r fun x _ => Answered Q truth instead x)
    (hhandler : ∀ f r', Ends Hides (handler f) r' fun x _ => x = .ok instead) :
    Ends Hides (a.handle kind handler) r fun x _ =>
      Answered (fun f => Q f ∧ ¬f.kind.isA kind = true) truth instead x := by
  refine .handle ha ?_ (fun f r' _ _ => (hhandler f r').mono fun x _ hx => .inr (.inl hx)) ?_
  · rintro x r' (hx | hx | ⟨f, hf, -⟩)
    · exact .inl hx
    · exact .inr (.inl hx)
    · cases hf
  · rintro e r' (he | he | ⟨f, hf, hQ⟩) hkind
    · cases he
    · cases he
    · cases hf
      exact .inr (.inr ⟨e, rfl, hQ, hkind⟩)

/-- Where every failure has been handled, there is an answer. -/
theorem run_answered {a : Attempt α} {truth instead : α} {s : Server}
    (h : Ends Hides a s.registry fun x _ => Answered Q truth instead x) (hQ : ∀ f, ¬Q f) (hs : s.FaultsAre Hides) :
    ∃ x, (a.run.run Server.answer s).result = .ok x ∧ (x = truth ∨ x = instead) := by
  obtain hx | hx | ⟨f, -, hf⟩ := h.run hs
  · exact ⟨truth, hx, .inl rfl⟩
  · exact ⟨instead, hx, .inr rfl⟩
  · exact absurd hf (hQ f)

end Attempt.Ends

/-! ## Namespaces -/

namespace Namespaces

theorem groupNames_reveals (e : Endpoint) (r : Registry) :
    (groupNames e).Reveals (fun f => f.kind.isA .registryUnreachable = true) r (r.groups.map Group.name) := by
  refine .attemptInSession (fun _ hf => hf) fun client => .bind (.listGroups ⟨e, client⟩ r) ?_
  have hnames : (r.groups.map fun g => (g.name, g.properties)).map Prod.fst = r.groups.map Group.name := by
    rw [List.map_map]
    rfl
  rw [← hnames]
  exact .pure _ r

/-- Every name or none is listed, whatever is lost. -/
theorem names_answered (e : Endpoint) {s : Server} (hs : s.FaultsAre Hides) :
    ∃ names, ((Namespaces.names e).run.run Server.answer s).result = .ok names ∧
      (names = s.registry.groups.map Group.name ∨ names = []) :=
  (((groupNames_reveals e s.registry).answered []).answered fun _ _ => .say_return _ _ _ _).run_answered
    (fun _ hf => hf.2 hf.1) hs

/-- A namespace that is there is found or not; one that is not there is not found. -/
theorem has_answered (e : Endpoint) (name : String) {s : Server} (hs : s.FaultsAre Hides) :
    ∃ found, ((Namespaces.has e name).run.run Server.answer s).result = .ok found ∧
      (found = ((s.registry.groups.map Group.name).any fun g => Text.sameName g name) ∨ found = false) := by
  have hlook : Attempt.Reveals (fun f => f.kind.isA .registryUnreachable = true)
      (do
        let groups ← groupNames e
        if groups.isEmpty then
          .say .debug .operations "No groups found at schema registry"
          return false
        return groups.any fun g => Text.sameName g name)
      s.registry ((s.registry.groups.map Group.name).any fun g => Text.sameName g name) := by
    refine .bind (groupNames_reveals e s.registry) ?_
    cases s.registry.groups.map Group.name with
    | nil => exact .say_bind (.pure _ _)
    | cons n ns => exact .pure _ _
  exact ((hlook.answered false).answered fun _ _ => .say_return _ _ _ _).run_answered (fun _ hf => hf.2 hf.1) hs

end Namespaces

/-! ## Tables -/

namespace Tables

/-- A session shows whether a table is there. -/
theorem hasIn_reveals (session : Session) (ns name : String) (r : Registry) :
    (hasIn session ns name).Reveals Failure.TellsLoss r (r.holds ns name) := by
  refine .bind ((Attempt.Reveals.listGroups session r).mono fun _ hf => .inl hf) ?_
  have hfind : ((r.groups.map fun g => (g.name, g.properties)).find? fun g => Text.sameName g.1 ns) =
      (r.meant? ns).map fun g => (g.name, g.properties) := List.find?_map
  rw [hfind, Registry.holds]
  cases hmeant : r.meant? ns with
  | none =>
    -- nothing is listed, or nothing of that name
    split
    · exact .say_bind (.pure _ r)
    · exact .pure _ r
  | some g =>
    split
    · rename_i hempty
      rw [List.isEmpty_iff, List.map_eq_nil_iff] at hempty
      rw [Registry.meant?, hempty] at hmeant
      cases hmeant
    · refine .bind (.getSchemas session (Registry.group?_of_meant? hmeant)) ?_
      rw [Option.any_some]
      cases g.schemas.any (isNamed name) with
      | true => exact .say_bind (.pure _ r)
      | false => exact .pure _ r

/-- A table that is there is found or not; one that is not there is not found. -/
theorem has_answered (e : Endpoint) (ns name : String) {s : Server} (hs : s.FaultsAre Hides) :
    ∃ found, ((Tables.has e ns name).run.run Server.answer s).result = .ok found ∧
      (found = s.registry.holds ns name ∨ found = false) := by
  have hsession : Attempt.Reveals Failure.TellsLoss (attemptInSession e fun session => hasIn session ns name)
      s.registry (s.registry.holds ns name) :=
    .attemptInSession (fun _ hf => .inl hf) fun client => hasIn_reveals ⟨e, client⟩ ns name s.registry
  -- one handler for each of the two failures that tell of a loss
  have hhas : Attempt.Ends Hides (Tables.has e ns name) s.registry fun x _ =>
      Answered _ (s.registry.holds ns name) false x :=
    .answered (.answered (hsession.answered false) fun _ _ => .say_return _ _ _ _) fun _ _ => .say_return _ _ _ _
  exact hhas.run_answered (fun f hf => hf.1.1.elim hf.1.2 hf.2) hs

end Tables

/-! ## Looking at the catalog -/

namespace Catalog

/-- A table with a name is looked for as such; an identifier without parts has none, and nothing is asked for. -/
theorem hasTable_nameless (c : Catalog) {i : Identifier} (hi : i.toParts = []) (s : Server) :
    ((c.hasTable i).run.run Server.answer s).result = .error .outOfRange := by
  have hname : i.tableName = .error .outOfRange := by
    rw [Identifier.tableName, hi]
    rfl
  rw [hasTable, hname]
  rfl

theorem hasTable_answered (c : Catalog) {i : Identifier} (hi : i.toParts ≠ []) {s : Server}
    (hs : s.FaultsAre Hides) :
    ∃ found there, ((c.hasTable i).run.run Server.answer s).result = .ok found ∧
      ((c.hasTable i).run.run Server.answer s.mended).result = .ok there ∧ (found = true → there = true) := by
  obtain ⟨name, hname⟩ : ∃ name, i.tableName = .ok name := by
    rw [Identifier.tableName, List.getLast?_eq_getLast_of_ne_nil hi]
    exact ⟨_, rfl⟩
  obtain ⟨found, hfound, htruth⟩ := Tables.has_answered c.endpoint i.tableNamespace name hs
  have hthere := ((c.hasTable_gives hname s.registry).run s.healthy_mended rfl).1
  refine ⟨found, _, ?_, hthere, ?_⟩
  · rw [hasTable, hname]
    exact hfound
  · rintro rfl
    exact (htruth.resolve_right Bool.false_ne_true.symm).symm

/-- The namespaces are the names of the groups, taken apart. -/
theorem listNamespaces_of_names (c : Catalog) {s : Server} {names : List String}
    (h : ((Namespaces.names c.endpoint).run.run Server.answer s).result = .ok names) :
    ((c.listNamespaces (.parts [])).run.run Server.answer s).result = .ok (names.map Text.splitDots) := by
  have hall : c.listNamespaces (.parts []) = do
      let names ← Namespaces.names c.endpoint
      return names.map Text.splitDots := rfl
  have hplay : (Attempt.play Server.answer (Namespaces.names c.endpoint) s).1 = .ok names := h
  show (Attempt.play Server.answer (c.listNamespaces (.parts [])) s).1 = _
  rw [hall, Attempt.play_bind]
  generalize Attempt.play Server.answer (Namespaces.names c.endpoint) s = out at hplay ⊢
  obtain ⟨x, s'⟩ := out
  obtain rfl : x = .ok names := hplay
  rfl

/-- **Faults can hide, but never invent.**  Whatever of the registry is out of reach or gone while it is looked
at, a look for a namespace, and one for a table whose identifier has parts, tells whether it is found, and what
it finds is found with nothing wrong, too; the list of the namespaces is the one with nothing wrong or empty.
Only an identifier without parts, which names no table, is refused, and is so in any case. -/
theorem looks_never_invent (c : Catalog) {s : Server} (hs : s.FaultsAre Hides) :
    (∀ ns : Identifier, ∃ found there, ((c.hasNamespace ns).run.run Server.answer s).result = .ok found ∧
      ((c.hasNamespace ns).run.run Server.answer s.mended).result = .ok there ∧ (found = true → there = true)) ∧
    (∀ i : Identifier, i.toParts ≠ [] →
      ∃ found there, ((c.hasTable i).run.run Server.answer s).result = .ok found ∧
      ((c.hasTable i).run.run Server.answer s.mended).result = .ok there ∧ (found = true → there = true)) ∧
    (∀ i : Identifier, i.toParts = [] → ((c.hasTable i).run.run Server.answer s).result = .error .outOfRange ∧
      ((c.hasTable i).run.run Server.answer s.mended).result = .error .outOfRange) ∧
    ∃ listed all, ((c.listNamespaces (.parts [])).run.run Server.answer s).result = .ok listed ∧
      ((c.listNamespaces (.parts [])).run.run Server.answer s.mended).result = .ok all ∧
      (listed = [] ∨ listed = all) := by
  refine ⟨fun ns => ?_, fun i hi => c.hasTable_answered hi hs,
    fun i hi => ⟨c.hasTable_nameless hi s, c.hasTable_nameless hi s.mended⟩, ?_⟩
  · obtain ⟨found, hfound, htruth⟩ := Namespaces.has_answered c.endpoint ns.toText hs
    have hthere := ((Namespaces.has_gives c.endpoint ns.toText s.registry).run s.healthy_mended rfl).1
    refine ⟨found, _, hfound, hthere, ?_⟩
    rintro rfl
    exact (htruth.resolve_right Bool.false_ne_true.symm).symm
  · obtain ⟨names, hnames, htruth⟩ := Namespaces.names_answered c.endpoint hs
    have hall := ((Namespaces.names_gives c.endpoint s.registry).run s.healthy_mended rfl).1
    refine ⟨_, _, c.listNamespaces_of_names hnames, c.listNamespaces_of_names hall, ?_⟩
    obtain rfl | rfl := htruth
    · exact .inr rfl
    · exact .inl rfl

/-- The connection is lost while the groups are listed: a table is not found, though it is there. -/
theorem looks_never_invent_reset :
    ∃ (c : Catalog) (s : Server) (i : Identifier), s.FaultsAre Hides ∧ i.toParts ≠ [] ∧
      ((c.hasTable i).run.run Server.answer s).result = .ok false ∧
      ((c.hasTable i).run.run Server.answer s.mended).result = .ok true := by
  let stored : StoredSchema := ⟨Tables.schemaOf "orders" "", ⟨"orders", 0, 0⟩⟩
  let g : Group := ⟨"sales", .ofOwner .null, [stored]⟩
  let c : Catalog := ⟨⟨.text "localhost", 9092, .text "default"⟩⟩
  let i : Identifier := .parts ["sales", "orders"]
  let s : Server :=
    { Server.start true with
      registry := ⟨[g], 1⟩, faults := [⟨.eachGroup, none, .raised .connectionReset "reset", 1, 1⟩] }
  have hs : s.FaultsAre Hides := by
    intro f hf
    rw [List.mem_singleton.mp hf]
    exact .inl rfl
  have hi : i.toParts ≠ [] := List.cons_ne_nil _ _
  obtain ⟨-, htables, -⟩ := c.looks_never_invent hs
  obtain ⟨found, there, hfound, hthere, -⟩ := htables i hi
  have hlost : ((c.hasTable i).run.run Server.answer s).result = .ok false := rfl
  have hmeant : s.registry.meant? "sales" = some g := List.find?_cons_of_pos (beq_self_eq_true _)
  have hholds : s.registry.holds "sales" "orders" = true := by
    rw [Registry.holds, hmeant, Option.any_some]
    exact List.any_eq_true.mpr ⟨stored, List.mem_singleton.mpr rfl, beq_self_eq_true _⟩
  have hwhole : ((c.hasTable i).run.run Server.answer s.mended).result = .ok (s.registry.holds "sales" "orders") :=
    (c.hasTable_gives (rfl : i.tableName = .ok "orders") s.registry |>.run s.healthy_mended rfl).1
  rw [hholds] at hwhole
  rw [hlost] at hfound
  rw [hwhole] at hthere
  cases hfound
  cases hthere
  exact ⟨c, s, i, hs, hi, hlost, hwhole⟩

/-- Not every look answers: an identifier without parts is refused, with nothing wrong at all. -/
theorem not_every_look_answers :
    ¬∀ (c : Catalog) (s : Server) (i : Identifier), s.FaultsAre Hides →
      ∃ found, ((c.hasTable i).run.run Server.answer s).result = .ok found := by
  intro hanswers
  let c : Catalog := ⟨⟨.text "localhost", 9092, .text "default"⟩⟩
  obtain ⟨found, hfound⟩ := hanswers c (Server.start true) (.parts []) fun _ hf => by cases hf
  rw [c.hasTable_nameless rfl] at hfound
  cases hfound

end Catalog

end SchemaCatalog
