/-
  Reading the catalog while others change its registry.

  The groups are listed first, then the versions of each, then the latest version of each type; others can add
  and remove groups and versions in between.  So what is read need never have been there at once.  But each entry
  was there in parts (`Seen`): its group was listed at one moment, its type was among the versions of that group
  at a later one, and its document was the latest of that type when it was fetched (`SeenVersion`).  An entry for
  a namespace stands for a group that was listed, and without versions when these were asked for.

  A group or type that has vanished in the meantime is a loss like any other: it ends the reading, which gives
  what it has read (`build_is_sound_among_others`).  Only a document that nests too deep makes it fail, and that
  was seen in the same way.
-/
import SchemaCatalog.Proofs.Registry.Shared
import SchemaCatalog.Proofs.Catalog.Reads

namespace SchemaCatalog

variable {P : Point → Failure → Prop} {r r' : Registry} {xs ys : List Exchange}

/-- The group that a position lies in. -/
def Position.within : Position → String
  | .group name | .table name _ => name

/-- An entry that stands for a namespace has null for the name of its table. -/
theorem Entry.table_of_isNamespace {entry : Entry} (h : entry.isNamespace = true) : entry.table = .null := by
  unfold isNamespace at h
  split at h
  · assumption
  · cases h

namespace Snapshot

/-! ## What is exchanged -/

/-- A failure is one that a call has been answered with, as it is told. -/
def Told (session : Session) (xs : List Exchange) (f : Failure) : Prop :=
  ∃ c f', (⟨.call session.client c, .error f'⟩ : Exchange) ∈ xs ∧ f = session.endpoint.told f'

theorem Told.mono {session : Session} {f : Failure} (h : Told session xs f) (hsub : xs.Sublist ys) :
    Told session ys f := by
  obtain ⟨c, f', hmem, hf⟩ := h
  exact ⟨c, f', hsub.subset hmem, hf⟩

/-- The version was fetched for a type that was among the versions of its group when they were listed before. -/
def FetchedAs (client : Client) (xs : List Exchange) (group type : String) (s : StoredSchema) : Prop :=
  ∃ schemas,
    [(⟨.call client (.getSchemas group), .ok schemas⟩ : Exchange),
      ⟨.call client (.latestVersion group type), .ok s⟩].Sublist xs ∧
    type ∈ List.map (fun v : StoredSchema => v.info.type) schemas

theorem FetchedAs.mono {client : Client} {group type : String} {s : StoredSchema}
    (h : FetchedAs client xs group type s) (hsub : xs.Sublist ys) : FetchedAs client ys group type s := by
  obtain ⟨schemas, hread, htype⟩ := h
  exact ⟨schemas, hread.trans hsub, htype⟩

section

variable [Json.Nesting]

/-- The entry is that of a document that was fetched for a type. -/
def Fetched (client : Client) (group : String) (xs : List Exchange) (type : String) (entry : Entry) : Prop :=
  ∃ s t, (⟨.call client (.latestVersion group type), .ok s⟩ : Exchange) ∈ xs ∧
    Document.decode (StoredSchema.info s).data = .ok t ∧ entry = .ofTable t

/-- The failure is that of a document that was fetched for a type and nests too deep. -/
def FetchedDeep (client : Client) (group : String) (xs : List Exchange) (type : String) (f : Failure) : Prop :=
  ∃ s why, (⟨.call client (.latestVersion group type), .ok s⟩ : Exchange) ∈ xs ∧
    Document.decode (StoredSchema.info s).data = .error why ∧ why.kind = .tooDeep ∧ f = .unreadable why

theorem Fetched.mono {client : Client} {group type : String} {entry : Entry}
    (h : Fetched client group xs type entry) (hsub : xs.Sublist ys) : Fetched client group ys type entry := by
  obtain ⟨s, t, hmem, hentry⟩ := h
  exact ⟨s, t, hsub.subset hmem, hentry⟩

theorem FetchedDeep.mono {client : Client} {group type : String} {f : Failure}
    (h : FetchedDeep client group xs type f) (hsub : xs.Sublist ys) : FetchedDeep client group ys type f := by
  obtain ⟨s, why, hmem, hf⟩ := h
  exact ⟨s, why, hsub.subset hmem, hf⟩

/-- Types are fetched one by one, up to the first that cannot be. -/
theorem readTypes_exchanges {session : Session} {group : String} {types : List String}
    {out : List Entry × Except Failure Bool} (h : (readTypes session group types).Transcript xs out) :
    (∃ read, read <+: types ∧ List.Forall₂ (Fetched session.client group xs) read out.1) ∧
      ∀ f, out.2 = .error f →
        Told session xs f ∨ ∃ type ∈ types, FetchedDeep session.client group xs type f := by
  induction types generalizing xs out with
  | nil =>
    obtain ⟨rfl, rfl⟩ := h.pure
    exact ⟨⟨[], List.prefix_rfl, .nil⟩, fun f hf => (by cases hf)⟩
  | cons type types ih =>
    obtain ⟨_, _, rest, hcall, hrest, rfl⟩ := h.say_bind.bind
    obtain ⟨reply, rfl, rfl⟩ := hcall.call
    cases reply with
    | error f =>
      obtain ⟨rfl, rfl⟩ := hrest.pure
      refine ⟨⟨[], List.nil_prefix, .nil⟩, fun f' hf' => ?_⟩
      cases hf'
      exact .inl ⟨_, f, List.mem_singleton.mpr rfl, rfl⟩
    | ok latest =>
      simp only [Except.mapError] at hrest
      cases hread : Document.decode (StoredSchema.info latest).data with
      | error why =>
        simp only [hread] at hrest
        split at hrest
        · obtain ⟨rfl, rfl⟩ := hrest.say_pure
          exact ⟨⟨[], List.nil_prefix, .nil⟩, fun f hf => (by cases hf)⟩
        · rename_i hunhandled
          obtain ⟨rfl, rfl⟩ := hrest.pure
          refine ⟨⟨[], List.nil_prefix, .nil⟩, fun f hf => ?_⟩
          cases hf
          have hdeep := isHandled_eq_false.mp (Bool.not_eq_true _ ▸ hunhandled)
          exact .inr ⟨type, List.mem_cons_self, latest, why, List.mem_singleton.mpr rfl, hread, hdeep, rfl⟩
      | ok table =>
        simp only [hread] at hrest
        obtain ⟨more, ⟨entries, outcome⟩, _, hmore, hend, rfl⟩ := hrest.bind
        obtain ⟨rfl, rfl⟩ := hend.pure
        -- the entries that follow are those of the types that follow
        obtain ⟨⟨read, hinit, hall⟩, hfailed⟩ := ih hmore
        rw [List.append_nil]
        have hsub : more.Sublist ([⟨.call session.client (.latestVersion group type), .ok latest⟩] ++ more) :=
          List.sublist_append_right _ _
        refine ⟨⟨type :: read, (List.prefix_cons_inj type).mpr hinit, .cons ?_ ?_⟩, fun f hf => ?_⟩
        · exact ⟨latest, table, List.mem_cons_self, hread, rfl⟩
        · exact hall.imp fun _ _ hfetched => hfetched.mono hsub
        · refine (hfailed f hf).imp (fun htold => htold.mono hsub) ?_
          rintro ⟨deep, hmem, hdeep⟩
          exact ⟨deep, List.mem_cons_of_mem type hmem, hdeep.mono hsub⟩

/-- The entry was read for a position: its group held no version when they were listed, or a version was fetched
for the type and it is that of its document. -/
def ReadAs (client : Client) (xs : List Exchange) : Position → Entry → Prop
  | .group name, entry =>
    (⟨.call client (.getSchemas name), .ok []⟩ : Exchange) ∈ xs ∧ entry = .ofNamespace name
  | .table group type, entry =>
    ∃ s t, FetchedAs client xs group type s ∧ Document.decode s.info.data = .ok t ∧ entry = .ofTable t

/-- The failure is that of a document that was fetched for a position and nests too deep. -/
def DeepAs (client : Client) (xs : List Exchange) (group : String) (f : Failure) : Prop :=
  ∃ type s why, FetchedAs client xs group type s ∧ Document.decode s.info.data = .error why ∧
    why.kind = .tooDeep ∧ f = .unreadable why

theorem ReadAs.mono {client : Client} {p : Position} {entry : Entry} (h : ReadAs client xs p entry)
    (hsub : xs.Sublist ys) : ReadAs client ys p entry := by
  cases p with
  | group name => exact ⟨hsub.subset h.1, h.2⟩
  | table group type =>
    obtain ⟨s, t, hfetched, hentry⟩ := h
    exact ⟨s, t, hfetched.mono hsub, hentry⟩

theorem DeepAs.mono {client : Client} {group : String} {f : Failure} (h : DeepAs client xs group f)
    (hsub : xs.Sublist ys) : DeepAs client ys group f := by
  obtain ⟨type, s, why, hfetched, hwhy⟩ := h
  exact ⟨type, s, why, hfetched.mono hsub, hwhy⟩

/-- Reading some groups has failed: a call has, or a document of one of them nests too deep. -/
def Fails (session : Session) (xs : List Exchange) (names : List String) (f : Failure) : Prop :=
  Told session xs f ∨ ∃ group ∈ names, DeepAs session.client xs group f

theorem Fails.mono {session : Session} {names names' : List String} {f : Failure}
    (h : Fails session xs names f) (hsub : xs.Sublist ys) (hnames : names ⊆ names') :
    Fails session ys names' f := by
  refine h.imp (fun htold => htold.mono hsub) ?_
  rintro ⟨group, hgroup, hdeep⟩
  exact ⟨group, hnames hgroup, hdeep.mono hsub⟩

/-- Entries read for positions, none of them twice. -/
def Reads (session : Session) (xs : List Exchange) (names : List String) (entries : List Entry) : Prop :=
  ∃ ps : List Position, List.Forall₂ (ReadAs session.client xs) ps entries ∧ (∀ p ∈ ps, p.within ∈ names) ∧
    (names.Nodup → ps.Nodup)

theorem Reads.none (session : Session) (xs : List Exchange) (names : List String) : Reads session xs names [] :=
  ⟨[], .nil, fun p hp => (by cases hp), fun _ => List.nodup_nil⟩

theorem readGroup_exchanges {session : Session} {group : String} {out : List Entry × Except Failure Bool}
    (h : (readGroup session group).Transcript xs out) :
    Reads session xs [group] out.1 ∧ ∀ f, out.2 = .error f → Fails session xs [group] f := by
  obtain ⟨_, _, rest, hcall, hrest, rfl⟩ := h.bind
  obtain ⟨reply, rfl, rfl⟩ := hcall.call
  cases reply with
  | error f =>
    obtain ⟨rfl, rfl⟩ := hrest.pure
    refine ⟨.none _ _ _, fun f' hf' => ?_⟩
    cases hf'
    exact .inl ⟨_, f, List.mem_singleton.mpr rfl, rfl⟩
  | ok schemas =>
    simp only [Except.mapError] at hrest
    split at hrest
    · rename_i hnone
      obtain ⟨rfl, rfl⟩ := hrest.say_pure
      -- a group without types is one without versions
      obtain rfl : schemas = [] := List.eq_nil_iff_forall_not_mem.mpr fun v hv =>
        List.not_mem_nil (hnone ▸ mem_typesOf.mpr (List.mem_map_of_mem hv))
      refine ⟨⟨[.group group], .cons ⟨List.mem_cons_self, rfl⟩ .nil, ?_, fun _ => List.nodup_singleton _⟩,
        fun f hf => (by cases hf)⟩
      exact List.forall_mem_singleton.mpr (List.mem_singleton.mpr rfl)
    · obtain ⟨⟨read, hinit, hall⟩, hfailed⟩ := readTypes_exchanges hrest
      have hsub := List.sublist_append_right
        [(⟨.call session.client (.getSchemas group), .ok schemas⟩ : Exchange)] rest
      have hfetched : ∀ {type s},
          (⟨.call session.client (.latestVersion group type), .ok s⟩ : Exchange) ∈ rest →
            type ∈ typesOf schemas → FetchedAs session.client
              ([(⟨.call session.client (.getSchemas group), .ok schemas⟩ : Exchange)] ++ rest) group type s :=
        fun hmem htype => ⟨schemas, (List.singleton_sublist.mpr hmem).cons_cons _, mem_typesOf.mp htype⟩
      have htypes : ∀ type ∈ read, type ∈ typesOf schemas := fun type htype => hinit.subset htype
      refine ⟨⟨read.map (.table group), ?_, ?_, fun _ => ?_⟩, fun f hf => ?_⟩
      · refine List.forall₂_map_left_iff.mpr (((List.forall₂_and_left _ _).mpr ⟨htypes, hall⟩).imp ?_)
        rintro type entry ⟨htype, s, t, hmem, hread, rfl⟩
        exact ⟨s, t, hfetched hmem htype, hread, rfl⟩
      · intro p hp
        obtain ⟨type, -, rfl⟩ := List.mem_map.mp hp
        exact List.mem_singleton.mpr rfl
      · exact ((nodup_typesOf schemas).sublist hinit.sublist).map fun _ _ heq => (Position.table.inj heq).2
      · refine (hfailed f hf).imp (fun htold => htold.mono hsub) ?_
        rintro ⟨type, htype, s, why, hmem, hwhy⟩
        exact ⟨group, List.mem_singleton.mpr rfl, type, s, why, hfetched hmem htype, hwhy⟩

theorem readGroups_exchanges {session : Session} {names : List String} {out : List Entry × Except Failure Unit}
    (h : (readGroups session names).Transcript xs out) :
    Reads session xs names out.1 ∧ ∀ f, out.2 = .error f → Fails session xs names f := by
  induction names generalizing xs out with
  | nil =>
    obtain ⟨rfl, rfl⟩ := h.pure
    exact ⟨.none _ _ _, fun f hf => (by cases hf)⟩
  | cons name names ih =>
    obtain ⟨first, ⟨entries, outcome⟩, rest, hgroup, hrest, rfl⟩ := h.say_bind.bind
    obtain ⟨⟨ps, hread, hwithin, hnodup⟩, hfailed⟩ := readGroup_exchanges hgroup
    have hread : List.Forall₂ (ReadAs session.client (first ++ rest)) ps entries :=
      hread.imp fun _ _ h => h.mono (List.sublist_append_left _ _)
    have hhere : ∀ p ∈ ps, p.within = name := fun p hp => List.mem_singleton.mp (hwithin p hp)
    have hfirst : Reads session (first ++ rest) (name :: names) entries :=
      ⟨ps, hread, fun p hp => hhere p hp ▸ List.mem_cons_self, fun _ => hnodup (List.nodup_singleton _)⟩
    cases outcome with
    | error f =>
      obtain ⟨rfl, rfl⟩ := hrest.pure
      refine ⟨hfirst, fun f' hf' => ?_⟩
      cases hf'
      exact (hfailed f rfl).mono (List.sublist_append_left _ _)
        (List.cons_subset_cons name (List.nil_subset names))
    | ok goOn =>
      cases goOn with
      | false =>
        obtain ⟨rfl, rfl⟩ := hrest.pure
        exact ⟨hfirst, fun f hf => (by cases hf)⟩
      | true =>
        obtain ⟨second, ⟨more, outcome⟩, _, hmore, hend, rfl⟩ := hrest.bind
        obtain ⟨rfl, rfl⟩ := hend.pure
        obtain ⟨⟨qs, hreadMore, hwithinMore, hnodupMore⟩, hfailedMore⟩ := ih hmore
        rw [List.append_nil] at hfirst hread ⊢
        have hsub : second.Sublist (first ++ second) := List.sublist_append_right _ _
        refine ⟨⟨ps ++ qs, ?_, ?_, fun hnames => ?_⟩, fun f hf =>
          (hfailedMore f hf).mono hsub (List.subset_cons_self name names)⟩
        · exact List.rel_append hread (hreadMore.imp fun _ _ h => h.mono hsub)
        · intro p hp
          rcases List.mem_append.mp hp with hp | hp
          · exact hhere p hp ▸ List.mem_cons_self
          · exact List.mem_cons_of_mem name (hwithinMore p hp)
        · obtain ⟨hname, hnames⟩ := List.nodup_cons.mp hnames
          refine List.nodup_append.mpr ⟨hnodup (List.nodup_singleton _), hnodupMore hnames, ?_⟩
          -- the positions of one group are not those of another
          rintro p hp _ hq rfl
          exact hname (hhere p hp ▸ hwithinMore p hq)

/-- The groups are listed, and then read. -/
theorem readAll_exchanges {session : Session} {out : List Entry × Except Failure Unit}
    (h : (readAll session).Transcript xs out) :
    (∃ f, xs = [⟨.call session.client .listGroups, .error f⟩] ∧ out = ([], .error (session.endpoint.told f))) ∨
      ∃ (groups : List (String × GroupProperties)) (rest : List Exchange),
        xs = ⟨.call session.client .listGroups, .ok groups⟩ :: rest ∧
        Reads session rest (groups.map Prod.fst) out.1 ∧
        ∀ f, out.2 = .error f → Fails session rest (groups.map Prod.fst) f := by
  obtain ⟨_, _, rest, hcall, hrest, rfl⟩ := h.bind
  obtain ⟨reply, rfl, rfl⟩ := hcall.call
  cases reply with
  | error f =>
    obtain ⟨rfl, rfl⟩ := hrest.pure
    exact .inl ⟨f, rfl, rfl⟩
  | ok groups =>
    refine .inr ⟨groups, rest, rfl, ?_⟩
    simp only [Except.mapError] at hrest
    split at hrest
    · obtain ⟨rfl, rfl⟩ := hrest.say_pure
      exact ⟨.none _ _ _, fun f hf => (by cases hf)⟩
    · exact readGroups_exchanges hrest

/-- Reading the catalog is a session; a loss is no failure of it. -/
theorem build_exchanges {e : Endpoint} {x : Except Failure Snapshot}
    (h : Dialogue.Transcript (build e).run xs x) :
    ∃ out, SessionTranscript e [] readAll xs out ∧ x = concluded out.1 out.2 := by
  obtain ⟨xs, ⟨entries, outcome⟩, rest, hsession, hend, rfl⟩ := h.bind
  refine ⟨(entries, outcome), ?_⟩
  cases outcome with
  | ok _ =>
    obtain ⟨rfl, rfl⟩ := hend.pure
    rw [List.append_nil]
    exact ⟨hsession.inSession, rfl⟩
  | error f =>
    rw [concluded]
    simp only at hend
    split at hend
    · rename_i hunreachable
      obtain ⟨rfl, rfl⟩ := hend.say_pure
      rw [List.append_nil, if_pos (by rw [hunreachable]; rfl)]
      exact ⟨hsession.inSession, rfl⟩
    · rename_i hunreachable
      split at hend
      · rename_i hgone
        obtain ⟨rfl, rfl⟩ := hend.say_pure
        rw [List.append_nil, if_pos (by rw [hgone, Bool.or_true])]
        exact ⟨hsession.inSession, rfl⟩
      · rename_i hgone
        obtain ⟨rfl, rfl⟩ := hend.pure
        rw [List.append_nil, if_neg (by simp [hunreachable, hgone])]
        exact ⟨hsession.inSession, rfl⟩

end

/-! ## What has been seen -/

/-- The version was seen at some moments, one after the other: its group was listed, its type was among the
versions of the group when these were listed, and it was the latest of the type when it was fetched. -/
def SeenVersion (past : List Moment) (group type : String) (s : StoredSchema) : Prop :=
  ∃ listing reading fetching : Moment, [listing, reading, fetching].Sublist past ∧
    listing.ListsGroups ∧ group ∈ listing.before.groups.map Group.name ∧
    reading.Lists group ∧ type ∈ (reading.before.schemasOf group).map (fun v => v.info.type) ∧
    fetching.Granted (.latestVersion group type) s ∧ fetching.before.latestOf group type = some s

/-- The entry was seen: its group was listed, and held no version when these were listed; or it is that of the
document of a version that was seen. -/
inductive Seen [Json.Nesting] (past : List Moment) : Position → Entry → Prop
  | group {name : String} {listing reading : Moment} (hpast : [listing, reading].Sublist past)
    (hlisting : listing.ListsGroups) (hname : name ∈ listing.before.groups.map Group.name)
    (hreading : reading.Lists name) (hempty : reading.before.schemasOf name = []) :
    Seen past (.group name) (.ofNamespace name)
  | table {group type : String} {s : StoredSchema} {t : StoredTable} (hs : SeenVersion past group type s)
    (ht : Document.decode s.info.data = .ok t) : Seen past (.table group type) (.ofTable t)

/-- A document that was seen nests too deep. -/
def SeenDeep [Json.Nesting] (past : List Moment) (f : Failure) : Prop :=
  ∃ group type s why, SeenVersion past group type s ∧ Document.decode s.info.data = .error why ∧
    why.kind = .tooDeep ∧ f = .unreadable why

/-- A version that is fetched is the latest. -/
theorem latestOf_of_granted {m : Moment} (h : m.Happens P) {group type : String} {s : StoredSchema}
    (hm : m.Granted (.latestVersion group type) s) : m.before.latestOf group type = some s := by
  have hperform := h.granted hm
  rw [Registry.latestOf]
  cases hg : m.before.group? group with
  | none =>
    rw [Registry.perform_of_none rfl hg] at hperform
    cases hperform
  | some g =>
    unfold Registry.perform at hperform
    rw [Option.bind_some]
    cases hs : Registry.latest? g type with
    | none =>
      simp only [Registry.findGroup_of_some hg, hs] at hperform
      cases hperform
    | some latest =>
      simp only [Registry.findGroup_of_some hg, hs] at hperform
      rw [Except.ok.inj (congrArg Prod.fst hperform)]

section

variable {t : List Moment} {client : Client} {groups : List (String × GroupProperties)} {rest : List Exchange}
  (hhistory : History P r t r')
  (hown : (⟨.call client .listGroups, .ok groups⟩ :: rest).Sublist (t.filterMap Moment.own?))
include hhistory hown

/-- A version that was fetched in a history was seen there. -/
theorem seenVersion_of_fetchedAs {group type : String} {s : StoredSchema} (hgroup : group ∈ groups.map Prod.fst)
    (h : FetchedAs client rest group type s) : SeenVersion t group type s := by
  obtain ⟨schemas, hboth, htype⟩ := h
  obtain ⟨ms, hpast, hms⟩ := hhistory.exists_owns ((hboth.cons_cons _).trans hown)
  obtain ⟨listing, _, ⟨hlisted, hlisting⟩, hlater, rfl⟩ := List.forall₂_cons_left_iff.mp hms
  obtain ⟨reading, _, ⟨hread, hreading⟩, hlast, rfl⟩ := List.forall₂_cons_left_iff.mp hlater
  obtain ⟨fetching, _, ⟨hfetched, hfetching⟩, hend, rfl⟩ := List.forall₂_cons_left_iff.mp hlast
  obtain rfl := List.forall₂_nil_left_iff.mp hend
  obtain ⟨hlists, hnames⟩ := hlisted.listsGroups ⟨client, hlisting⟩
  obtain ⟨hlists', hschemas, -⟩ := hread.lists ⟨client, hreading⟩
  have hlatest := latestOf_of_granted hfetched ⟨client, hfetching⟩
  exact ⟨listing, reading, fetching, hpast, hlists, hnames ▸ hgroup, hlists', hschemas ▸ htype,
    ⟨client, hfetching⟩, hlatest⟩

/-- What was read for a position in a history was seen there. -/
theorem seen_of_readAs [Json.Nesting] {p : Position} {entry : Entry} (hp : p.within ∈ groups.map Prod.fst)
    (h : ReadAs client rest p entry) : Seen t p entry := by
  cases p with
  | group name =>
    obtain ⟨hmem, rfl⟩ := h
    obtain ⟨ms, hpast, hms⟩ := hhistory.exists_owns (((List.singleton_sublist.mpr hmem).cons_cons _).trans hown)
    obtain ⟨listing, _, ⟨hlisted, hlisting⟩, hlater, rfl⟩ := List.forall₂_cons_left_iff.mp hms
    obtain ⟨reading, _, ⟨hread, hreading⟩, hend, rfl⟩ := List.forall₂_cons_left_iff.mp hlater
    obtain rfl := List.forall₂_nil_left_iff.mp hend
    obtain ⟨hlists, hnames⟩ := hlisted.listsGroups ⟨client, hlisting⟩
    obtain ⟨hlists', hschemas, -⟩ := hread.lists ⟨client, hreading⟩
    exact .group hpast hlists (hnames ▸ hp) hlists' hschemas.symm
  | table group type =>
    obtain ⟨s, table, hfetched, ht, rfl⟩ := h
    exact .table (seenVersion_of_fetchedAs hhistory hown hp hfetched) ht

end

/-! ## Among losses -/

section Lossy

variable {t : List Moment} (hhistory : History Server.Lossy r t r')
include hhistory

/-- A client that could not be opened is a loss. -/
theorem tellsLoss_of_opening {e : Endpoint} {f : Failure}
    (h : (⟨.opening e, .error f⟩ : Exchange) ∈ t.filterMap Moment.own?) : (e.told f).TellsLoss := by
  obtain ⟨m, -, hm, hdeed⟩ := hhistory.exists_own h
  exact (hm.isLoss_opening hdeed).told e

/-- A call that failed is a loss. -/
theorem tellsLoss_of_call {client : Client} {c : Call} {f : Failure} (e : Endpoint)
    (h : (⟨.call client c, .error f⟩ : Exchange) ∈ t.filterMap Moment.own?) : (e.told f).TellsLoss := by
  obtain ⟨m, -, hm, hdeed⟩ := hhistory.exists_own h
  exact (hm.isLoss hdeed).told e

/-- Clients are closed. -/
theorem closed_of_closes {client : Client} {closing : List Exchange} {closed : Except Failure Unit}
    (h : Closes client closing closed) (hsub : closing ⊆ t.filterMap Moment.own?) : closed = .ok () := by
  cases h with
  | without _ => rfl
  | once _ =>
    obtain ⟨m, -, hm, hdeed⟩ := hhistory.exists_own (hsub List.mem_cons_self)
    exact hm.closed hdeed

/-- No group is listed twice. -/
theorem nodup_of_listGroups {client : Client} {groups : List (String × GroupProperties)}
    (hd : (r.groups.map Group.name).Nodup)
    (h : (⟨.call client .listGroups, .ok groups⟩ : Exchange) ∈ t.filterMap Moment.own?) :
    (groups.map Prod.fst).Nodup := by
  obtain ⟨m, hmem, hm, hdeed⟩ := hhistory.exists_own h
  obtain ⟨t₁, t₂, rfl⟩ := List.append_of_mem hmem
  rw [(hm.listsGroups ⟨client, hdeed⟩).2]
  exact hhistory.at_moment.1.nodup_names hd

/-- Why reading groups has failed in such a history: it was a loss, or a document that was seen. -/
theorem seen_of_fails [Json.Nesting] {e : Endpoint} {client : Client} {groups : List (String × GroupProperties)}
    {rest : List Exchange} {f : Failure}
    (hown : (⟨.call client .listGroups, .ok groups⟩ :: rest).Sublist (t.filterMap Moment.own?))
    (h : Fails ⟨e, client⟩ rest (groups.map Prod.fst) f) : f.TellsLoss ∨ SeenDeep t f := by
  obtain ⟨c, f', hmem, rfl⟩ | ⟨group, hgroup, type, s, why, hfetched, hwhy⟩ := h
  · exact .inl (tellsLoss_of_call hhistory e (hown.subset (List.mem_cons_of_mem _ hmem)))
  · exact .inr ⟨group, type, s, why, seenVersion_of_fetchedAs hhistory hown hgroup hfetched, hwhy⟩

/-- Reading the catalog in a history with nothing but losses. -/
theorem seen_of_exchanges [Json.Nesting] {e : Endpoint} {x : Except Failure Snapshot}
    (hd : (r.groups.map Group.name).Nodup) (h : Dialogue.Transcript (build e).run (t.filterMap Moment.own?) x) :
    (∃ entries positions, x = .ok ⟨entries⟩ ∧ positions.Nodup ∧ List.Forall₂ (Seen t) positions entries) ∨
      ∃ f, x = .error f ∧ SeenDeep t f := by
  obtain ⟨out, hsession, rfl⟩ := build_exchanges h
  generalize hown : t.filterMap Moment.own? = xs at hsession
  cases hsession with
  | refused f =>
    have hloss := tellsLoss_of_opening hhistory (e := e) (hown ▸ List.mem_cons_self)
    exact .inl ⟨[], [], concluded_of_tellsLoss hloss [], List.nodup_nil, .nil⟩
  | @opened client ys closing inner closed hbody hclosing =>
    have hsub : ys.Sublist (t.filterMap Moment.own?) := by
      rw [hown]
      exact (List.sublist_append_left ys closing).cons _
    -- so the body's outcome is the session's
    obtain rfl : closed = .ok () := by
      refine closed_of_closes hhistory hclosing ?_
      rw [hown]
      exact List.subset_cons_of_subset _ (List.subset_append_right ys closing)
    obtain ⟨f, rfl, rfl⟩ | ⟨groups, rest, rfl, ⟨ps, hread, hwithin, hnodup⟩, hfailed⟩ := readAll_exchanges hbody
    · have hloss := tellsLoss_of_call hhistory e (hsub.subset List.mem_cons_self)
      exact .inl ⟨[], [], concluded_of_tellsLoss hloss [], List.nodup_nil, .nil⟩
    · have hdistinct := hnodup (nodup_of_listGroups hhistory hd (hsub.subset List.mem_cons_self))
      have hseen : List.Forall₂ (Seen t) ps inner.1 := by
        refine ((List.forall₂_and_left _ _).mpr ⟨hwithin, hread⟩).imp ?_
        rintro p entry ⟨hp, hreadAs⟩
        exact seen_of_readAs hhistory hsub hp hreadAs
      obtain ⟨entries, outcome⟩ := inner
      cases outcome with
      | ok _ => exact .inl ⟨entries, ps, rfl, hdistinct, hseen⟩
      | error f =>
        rcases seen_of_fails hhistory hsub (hfailed f rfl) with hloss | hdeep
        · exact .inl ⟨entries, ps, concluded_of_tellsLoss hloss entries, hdistinct, hseen⟩
        · obtain ⟨_, _, _, why, -, -, hkind, rfl⟩ := id hdeep
          exact .inr ⟨_, concluded_of_tooDeep hkind entries, hdeep⟩

end Lossy

section

variable [Json.Nesting]

theorem exists_seen {t : List Moment} {positions : List Position} {entries : List Entry}
    (h : List.Forall₂ (Seen t) positions entries) : ∀ entry ∈ entries, ∃ p, Seen t p entry := by
  induction h with
  | nil => exact fun entry hentry => by cases hentry
  | @cons p entry ps entries hp _ ih => exact List.forall_mem_cons.mpr ⟨⟨p, hp⟩, ih⟩

/-- An entry with a table name was seen for a type of a group. -/
theorem Seen.of_table {past : List Moment} {p : Position} {entry : Entry} (h : Seen past p entry)
    (htable : entry.isNamespace = false) : ∃ group type, Seen past (.table group type) entry := by
  cases p with
  | table group type => exact ⟨group, type, h⟩
  | group name =>
    cases h
    cases htable

/-- One without was seen for a group without versions, or its document has null for the name of its table. -/
theorem Seen.of_namespace {past : List Moment} {p : Position} {entry : Entry} (h : Seen past p entry)
    (hnamespace : entry.isNamespace = true) : (∃ name, Seen past (.group name) entry) ∨
      ∃ group type t, entry = .ofTable t ∧ t.tablename = .null ∧ Seen past (.table group type) entry := by
  cases p with
  | group name => exact .inl ⟨name, h⟩
  | table group type =>
    obtain ⟨t, rfl⟩ : ∃ t, entry = .ofTable t := by
      cases h
      exact ⟨_, rfl⟩
    exact .inr ⟨group, type, t, rfl, Entry.table_of_isNamespace hnamespace, h⟩

/-- **Reading among other clients is sound.**  Whatever others do between its requests, and with no failures but
losses, reading the catalog gives a listing or fails for a document that nests too deep, which was seen.  The
entries of a listing were seen, each for a position of its own: those with a table name for a type of a group, the
others for a group without versions, or for a type whose document has null for the name. -/
theorem build_is_sound_among_others (e : Endpoint) {s : Server} (others : List (List Call)) (hs : s.OnlyLosses)
    (hd : (s.registry.groups.map Group.name).Nodup) :
    let out := (build e).run.run Shared.answer (.start s others)
    let past := out.state.past
    (∃ entries positions, out.result = .ok ⟨entries⟩ ∧ positions.Nodup ∧
      List.Forall₂ (Seen past) positions entries ∧
      (∀ entry ∈ entries, entry.isNamespace = false → ∃ group type, Seen past (.table group type) entry) ∧
      ∀ entry ∈ entries, entry.isNamespace = true → (∃ name, Seen past (.group name) entry) ∨
        ∃ group type t, entry = .ofTable t ∧ t.tablename = .null ∧ Seen past (.table group type) entry) ∨
    ∃ f, out.result = .error f ∧ SeenDeep past f := by
  intro out past
  obtain ⟨t, hpast, hhistory, hown, -⟩ := Dialogue.goesOn (build e).run (s := .start s others) hs.faultsAre
  obtain rfl : past = t := hpast
  have htranscript := Dialogue.transcript_exchanges Shared.answer (build e).run (.start s others)
  rw [← hown] at htranscript
  refine (seen_of_exchanges hhistory hd htranscript).imp_left ?_
  rintro ⟨entries, positions, hresult, hnodup, hseen⟩
  refine ⟨entries, positions, hresult, hnodup, hseen, fun entry hentry htable => ?_,
    fun entry hentry hnamespace => ?_⟩
  · obtain ⟨p, hp⟩ := exists_seen hseen entry hentry
    exact hp.of_table htable
  · obtain ⟨p, hp⟩ := exists_seen hseen entry hentry
    exact hp.of_namespace hnamespace

end

section

open Json.Usual

/-- Two groups are there when the groups are listed, and one of them is gone when it is read. -/
theorem build_is_sound_among_others_removed :
    ∃ (e : Endpoint) (s : Server) (others : List (List Call)), s.OnlyLosses ∧
      (s.registry.groups.map Group.name).Nodup ∧
      let out := (build e).run.run Shared.answer (.start s others)
      ∃ entries positions, out.result = .ok ⟨entries⟩ ∧ List.Forall₂ (Seen out.state.past) positions entries ∧
        entries.length = 1 := by
  let e : Endpoint := ⟨.text "localhost", 9092, .text "default"⟩
  let others : List (List Call) :=
    [[.addGroup "sales" (.ofOwner .null), .addGroup "items" (.ofOwner .null)], [], [], [.removeGroup "items"]]
  let s := Server.start true
  have hs : s.OnlyLosses := fun _ hf => by cases hf
  have hd : (s.registry.groups.map Group.name).Nodup := List.nodup_nil
  have hone : (((build e).run.run Shared.answer (.start s others)).result.toOption.map fun s => s.entries.length) =
      some 1 := by decide +kernel
  obtain ⟨entries, positions, hresult, -, hseen, -⟩ | ⟨f, hresult, -⟩ := build_is_sound_among_others e others hs hd
  · rw [hresult] at hone
    exact ⟨e, s, others, hs, hd, entries, positions, hresult, hseen, Option.some.inj hone⟩
  · rw [hresult] at hone
    cases hone

/-- A group with one version, whose document has null for the name of the table. -/
def unnamed : Registry :=
  let t : SchemaInfo := ⟨"t", jsonFormat, Catalog.naming (.text "d") .null, []⟩
  ⟨[⟨"g", .ofOwner .null, [⟨t, ⟨"t", 0, 0⟩⟩]⟩], 1⟩

/-- An entry that stands for a namespace need not stand for a group without versions, even where nobody else is
at work: a document can have null for the name of its table. -/
theorem not_every_namespace_is_an_empty_group :
    ¬∀ (e : Endpoint) (s : Server) (entries : List Entry), s.OnlyLosses →
      (s.registry.groups.map Group.name).Nodup →
      ((build e).run.run Shared.answer (.start s [])).result = .ok ⟨entries⟩ →
      ∀ entry ∈ entries, entry.isNamespace = true →
        ∃ g ∈ s.registry.groups, entry.ns = .text g.name ∧ g.schemas = [] := by
  intro hempty
  let e : Endpoint := ⟨.text "localhost", 9092, .text "default"⟩
  let s : Server := { Server.start true with registry := unnamed }
  obtain ⟨t, ht, -, htablename⟩ := Catalog.decode_naming (Value.isWritable_text "d")
    ⟨.null, Value.within_scalar rfl⟩
  let stored : StoredSchema := ⟨⟨"t", jsonFormat, Catalog.naming (.text "d") .null, []⟩, ⟨"t", 0, 0⟩⟩
  have hlatest : unnamed.latestOf "g" "t" = some stored := rfl
  have hpositions : unnamed.positions = [.table "g" "t"] := by
    show (["t"].eraseDups).map (Position.table "g") ++ [] = _
    simp [List.eraseDups_cons]
  have hentries : unnamed.positions.map unnamed.entryAt = [.ofTable t].map some := by
    rw [hpositions, List.map_cons, List.map_nil, Registry.entryAt_table hlatest ht]
    rfl
  have hresult := build_of_whole e (s := s) ⟨rfl, rfl⟩ hentries
  rw [← Dialogue.result_alone _ s []] at hresult
  obtain ⟨g, hg, -, hnone⟩ := hempty e s _ (fun _ hf => by cases hf) (List.nodup_singleton _) hresult
    (.ofTable t) (List.mem_singleton.mpr rfl) (by simp [Entry.isNamespace, Entry.ofTable, htablename])
  rw [List.mem_singleton.mp hg] at hnone
  cases hnone

end

end Snapshot

end SchemaCatalog
