/-
  Dropping a table while others change its namespace.

  Dropping lists the versions of a group and then deletes, one by one, those that have the name.  Others can do
  anything in between: add versions of the same name, delete those listed, even remove the group and create it
  again.  What ties the list to the registry is the id of a version.  It was given before the list was read, so
  what has it later is what was listed, in the same group (`Registry.Since`), and a version that is added later
  has another one.

  Hence what is removed was listed, and what was listed is gone at the end, unless a call fails
  (`drop_loses_no_later_version`).
-/
import SchemaCatalog.Proofs.Registry.Shared
import SchemaCatalog.Tables

namespace SchemaCatalog

variable {P : Point → Failure → Prop} {r r' : Registry} {t t₁ t₂ : List Moment}

/-! ## What dropping asks for -/

namespace Tables

/-- The request to delete a version. -/
def deletion (client : Client) (ns : String) (v : StoredSchema) : Request :=
    .call client (.deleteVersion ns v.version)

/-- Each version is asked to be deleted, up to the first that is not. -/
theorem deleteEach_exchanges {session : Session} {ns : String} {n : Nat} {vs : List StoredSchema}
    {xs : List Exchange}
    {out : Nat × Except Failure Unit} (h : (deleteEach session ns n vs).Transcript xs out) :
    (∀ x ∈ xs, ∃ v ∈ vs, x.request = deletion session.client ns v) ∧
      ((∀ x ∈ xs, x.Succeeds) → ∀ v ∈ vs, ∃ x ∈ xs, x.request = deletion session.client ns v) := by
  induction vs generalizing n xs with
  | nil =>
    obtain ⟨rfl, -⟩ := h.pure
    exact ⟨fun x hx => (by cases hx), fun _ v hv => (by cases hv)⟩
  | cons v vs ih =>
    obtain ⟨_, _, ys, hcall, hrest, rfl⟩ := h.say_bind.bind
    obtain ⟨reply, rfl, rfl⟩ := hcall.call
    have hfirst : ∀ x ∈ [(⟨.call session.client (.deleteVersion ns v.version), reply⟩ : Exchange)],
        x.request = deletion session.client ns v := by
      intro x hx
      rw [List.mem_singleton.mp hx]
      rfl
    cases reply with
    | error f =>
      obtain ⟨rfl, -⟩ := hrest.pure
      rw [List.append_nil]
      refine ⟨fun x hx => ⟨v, List.mem_cons_self, hfirst x hx⟩, fun hall => ?_⟩
      obtain ⟨y, hy⟩ := hall _ (List.mem_singleton.mpr rfl)
      cases hy
    | ok u =>
      obtain ⟨honly, hall⟩ := ih hrest
      constructor
      · intro x hx
        rcases List.mem_append.mp hx with hx | hx
        · exact ⟨v, List.mem_cons_self, hfirst x hx⟩
        · obtain ⟨w, hw, hrequest⟩ := honly x hx
          exact ⟨w, List.mem_cons_of_mem v hw, hrequest⟩
      · intro hsucceed w hw
        rcases List.mem_cons.mp hw with rfl | hw
        · exact ⟨_, List.mem_append_left _ (List.mem_singleton.mpr rfl), rfl⟩
        · obtain ⟨x, hx, hrequest⟩ := hall (fun x hx => hsucceed x (List.mem_append_right _ hx)) w hw
          exact ⟨x, List.mem_append_right _ hx, hrequest⟩

/-- What is exchanged when a table is dropped: the versions of the group are listed, and those that have the
name are asked to be deleted, every one if none of these requests fails. -/
structure DropExchanges (ns name : String) (client : Client) (schemas : List StoredSchema)
    (before after : List Exchange) : Prop where
  opening : ∀ x ∈ before, x.request.IsReading
  only : ∀ x ∈ after, x.request.IsReading ∨ ∃ v ∈ schemas, isNamed name v = true ∧ x.request = deletion client ns v
  all : (∀ x ∈ after, ∀ v, x.request = deletion client ns v → x.Succeeds) →
    ∀ v ∈ schemas, isNamed name v = true → ∃ x ∈ after, x.request = deletion client ns v

theorem isReading_of_closes {client : Client} {xs : List Exchange} {closed : Except Failure Unit}
    (h : Closes client xs closed) : ∀ x ∈ xs, x.request.IsReading := by
  cases h with
  | without _ => exact fun x hx => by cases hx
  | once _ reply =>
    intro x hx
    rw [List.mem_singleton.mp hx]
    trivial

theorem dropIn_exchanges {session : Session} {ns name : String} {xs : List Exchange}
    {out : Nat × Except Failure Unit}
    (h : (dropIn session ns name).Transcript xs out) :
    (∃ f, xs = [⟨.call session.client (.getSchemas ns), .error f⟩]) ∨
      ∃ schemas deletions, xs = ⟨.call session.client (.getSchemas ns), .ok schemas⟩ :: deletions ∧
        (deleteEach session ns 0 (schemas.filter (isNamed name))).Transcript deletions out := by
  obtain ⟨_, _, rest, hcall, hrest, rfl⟩ := h.bind
  obtain ⟨reply, rfl, rfl⟩ := hcall.call
  cases reply with
  | error f =>
    obtain ⟨rfl, -⟩ := hrest.pure
    exact .inl ⟨f, rfl⟩
  | ok schemas => exact .inr ⟨schemas, rest, rfl, hrest⟩

/-- The exchange that keeps dropping from the versions: no client is opened, or the group is not listed. -/
def StopsBeforeListing (ns : String) (x : Exchange) : Prop :=
  (∃ e f, x = ⟨.opening e, .error f⟩) ∨ ∃ client f, x = ⟨.call client (.getSchemas ns), .error f⟩

/-- Dropping fails before it knows the versions, or lists them and deletes. -/
theorem drop_exchanges {e : Endpoint} {ns name : String} {xs : List Exchange} {out : Except Failure Nat}
    (h : Dialogue.Transcript (Tables.drop e ns name).run xs out) :
    ((∃ x ∈ xs, StopsBeforeListing ns x) ∧ ∀ x ∈ xs, x.request.IsReading) ∨
      ∃ before client schemas after, xs = before ++ ⟨.call client (.getSchemas ns), .ok schemas⟩ :: after ∧
        DropExchanges ns name client schemas before after := by
  obtain ⟨xs, ⟨deleted, outcome⟩, rest, hsession, hend, rfl⟩ := h.say_bind.bind
  -- what is left is to log the outcome
  have hrest : rest = [] := by
    cases outcome with
    | ok _ => exact hend.pure.1
    | error f =>
      simp only at hend
      split at hend
      · exact hend.say_pure.1
      · split at hend
        · exact hend.say_pure.1
        · exact hend.pure.1
  subst hrest
  rw [List.append_nil]
  cases hsession.inSession with
  | refused f =>
    refine .inl ⟨⟨_, List.mem_singleton.mpr rfl, .inl ⟨e, f, rfl⟩⟩, fun x hx => ?_⟩
    rw [List.mem_singleton.mp hx]
    trivial
  | @opened client ys closing inner closed hbody hclosing =>
    have hend := isReading_of_closes hclosing
    obtain ⟨f, rfl⟩ | ⟨schemas, deletions, rfl, hdelete⟩ := dropIn_exchanges hbody
    · refine .inl ⟨⟨_, List.mem_cons_of_mem _ List.mem_cons_self, .inr ⟨client, f, rfl⟩⟩, ?_⟩
      refine List.forall_mem_cons.mpr ⟨trivial, List.forall_mem_cons.mpr ⟨rfl, hend⟩⟩
    · obtain ⟨honly, hall⟩ := deleteEach_exchanges hdelete
      refine .inr ⟨[⟨.opening e, .ok client⟩], client, schemas, deletions ++ closing, rfl, ?_, ?_, ?_⟩
      · exact List.forall_mem_singleton.mpr trivial
      · intro x hx
        rcases List.mem_append.mp hx with hx | hx
        · obtain ⟨v, hv, hrequest⟩ := honly x hx
          obtain ⟨hmem, hnamed⟩ := List.mem_filter.mp hv
          exact .inr ⟨v, hmem, hnamed, hrequest⟩
        · exact .inl (hend x hx)
      · intro hsucceed v hv hnamed
        have hdeleted : ∀ x ∈ deletions, x.Succeeds := by
          intro x hx
          obtain ⟨w, -, hrequest⟩ := honly x hx
          exact hsucceed x (List.mem_append_left _ hx) w hrequest
        obtain ⟨x, hx, hrequest⟩ := hall hdeleted v (List.mem_filter.mpr ⟨hv, hnamed⟩)
        exact ⟨x, List.mem_append_left _ hx, hrequest⟩

/-! ## Dropping in a history -/

/-- A deletion removes at most the version that it names. -/
theorem removes_of_deletion {m : Moment} {x : Exchange} {client : Client} {ns group : String} {v w : StoredSchema}
    (h : m.Happens P) (hm : m.deed = .own x) (hx : x.request = deletion client ns w) (hv : m.Removes group v) :
    group = ns ∧ v.version = w.version := by
  obtain ⟨request, reply⟩ := x
  obtain rfl : request = deletion client ns w := hx
  obtain ⟨hbefore, hafter⟩ := hv
  rcases h.after_eq hm with hr | hr
  · rw [hr, Registry.perform_deleteVersion_snd] at hafter
    by_contra hother
    exact hafter (Registry.stores_deleteVersion hbefore fun hgroup hversion => hother ⟨hgroup, hversion⟩)
  · rw [hr] at hafter
    exact absurd hbefore hafter

/-- A deletion that succeeds leaves no such version in the group. -/
theorem not_stores_of_deletion {m : Moment} {x : Exchange} {client : Client} {ns : String} {v : StoredSchema}
    (h : m.Happens P) (hm : m.deed = .own x) (hx : x.request = deletion client ns v) (hy : x.Succeeds) :
    ¬m.after.Stores ns v := by
  obtain ⟨request, reply⟩ := x
  obtain rfl : request = deletion client ns v := hx
  obtain ⟨y, rfl⟩ : ∃ y : Unit, reply = .ok y := hy
  have hafter : (m.before.perform (.deleteVersion ns v.version)).2 = m.after :=
    congrArg Prod.snd (h.granted ⟨client, hm⟩)
  intro hv
  rw [← hafter, Registry.perform_deleteVersion_snd] at hv
  exact Registry.version_ne_of_stores_deleteVersion hv rfl

section Listed

variable {ns name : String} {before after : List Exchange} {client : Client} {schemas : List StoredSchema}
  {listing : Moment} (hhistory : History P r (t₁ ++ listing :: t₂) r') (hnumbered : r.Numbered)
  (hlisting : listing.Granted (.getSchemas ns) schemas)
include hhistory hnumbered hlisting

/-- At the listing, what is listed is stored and all ids are told apart, and from there the history goes on. -/
theorem goesOn_listing : listing.before.Numbered ∧ (∀ v ∈ schemas, listing.before.Stores ns v) ∧
    listing.after = listing.before ∧ History P listing.before t₂ r' := by
  obtain ⟨hhistory₁, hhappens, hhistory₂⟩ := hhistory.at_moment
  obtain ⟨-, -, hsame, hstored⟩ := hhappens.lists hlisting
  exact ⟨hhistory₁.numbered hnumbered, hstored, hsame, hsame ▸ hhistory₂⟩

/-- What is added after the listing is not in it. -/
theorem not_listed_of_adds {m : Moment} (hm : m ∈ t₂) {group : String} {v : StoredSchema} (hv : m.Adds group v) :
    v ∉ schemas := by
  intro hlisted
  obtain ⟨hnumbered₁, hstored, -, hrest⟩ := goesOn_listing hhistory hnumbered hlisting
  obtain ⟨t₃, t₄, rfl⟩ := List.append_of_mem hm
  obtain ⟨hthen, hmoment, -⟩ := hrest.at_moment
  have hold : v.version.id < m.before.nextId :=
    Nat.lt_of_lt_of_le (hnumbered₁.below (hstored v hlisted)) hthen.since.nextId_le
  exact absurd (hmoment.nextId_le_of_adds hv) (Nat.not_le_of_lt hold)

variable (h : DropExchanges ns name client schemas before after) (hafter : t₂.filterMap Moment.own? = after)
include h hafter

/-- What was listed under the name is gone at the end, if it could be deleted. -/
theorem not_stores_of_listed {v : StoredSchema} (hv : v ∈ schemas) (hnamed : isNamed name v = true)
    (hall : ∀ x ∈ after, ∀ w, x.request = deletion client ns w → x.Succeeds) (group : String) :
    ¬r'.Stores group v := by
  intro hleft
  obtain ⟨hnumbered₁, hstored, -, hrest⟩ := goesOn_listing hhistory hnumbered hlisting
  obtain ⟨rfl, -⟩ := hrest.since.eq_of_id hnumbered₁ (hstored v hv) hleft rfl
  obtain ⟨x, hx, hrequest⟩ := h.all hall v hv hnamed
  obtain ⟨m, hm, hdeed⟩ := mem_own.mp (hafter ▸ hx)
  obtain ⟨t₃, t₄, rfl⟩ := List.append_of_mem hm
  obtain ⟨hthen, hmoment, hend⟩ := hrest.at_moment
  -- it is gone from its group at that moment, and its id is not given again
  have hgone := not_stores_of_deletion hmoment hdeed hrequest (hall x hx v hrequest)
  have hold : v.version.id < m.after.nextId :=
    Nat.lt_of_lt_of_le (hnumbered₁.below (hstored v hv)) (hthen.since.trans hmoment.since).nextId_le
  exact hgone (hend.since.old hleft hold)

variable (hbefore : t₁.filterMap Moment.own? = before)
include hbefore

/-- Dropping removes what it has listed under the name. -/
theorem listed_of_removes {m : Moment} (hm : m ∈ t₁ ++ listing :: t₂) {x : Exchange} (hx : m.deed = .own x)
    {group : String} {v : StoredSchema} (hv : m.Removes group v) :
    m ∈ t₂ ∧ group = ns ∧ v ∈ schemas ∧ isNamed name v = true := by
  obtain ⟨hnumbered₁, hstored, hsame, hrest⟩ := goesOn_listing hhistory hnumbered hlisting
  have hmoment := hhistory.happens m hm
  have hreading : ¬x.request.IsReading := fun hreading =>
    Moment.not_removes_of_eq (hmoment.reading hx hreading) group v hv
  rcases List.mem_append.mp hm with hm | hm
  · exact absurd (h.opening x (hbefore ▸ mem_own.mpr ⟨m, hm, hx⟩)) hreading
  rcases List.mem_cons.mp hm with rfl | hm
  · exact absurd hv (Moment.not_removes_of_eq hsame group v)
  rcases h.only x (hafter ▸ mem_own.mpr ⟨m, hm, hx⟩) with honly | ⟨w, hw, hnamed, hrequest⟩
  · exact absurd honly hreading
  -- a deletion names a version that was listed, and nothing else has its id
  obtain ⟨-, hversion⟩ := removes_of_deletion hmoment hx hrequest hv
  obtain ⟨t₃, t₄, rfl⟩ := List.append_of_mem hm
  have hsince := hrest.at_moment.1.since
  obtain ⟨rfl, rfl⟩ := hsince.eq_of_id hnumbered₁ (hstored w hw) hv.1 (congrArg Version.id hversion)
  exact ⟨hm, rfl, hw, hnamed⟩

end Listed

/-- What a drop does to the versions of a group, between the calls of others: it is not answered when it opens a
client or lists the versions, and removes none; or, from the moment at which it lists them, it removes only
versions that are listed and have the name, none that is added later, and unless one of its calls fails it
leaves none of them. -/
def DropsListed (ns name : String) (past : List Moment) (r : Registry) : Prop :=
  ((∃ m ∈ past, ∃ x, m.deed = .own x ∧ StopsBeforeListing ns x) ∧
      ∀ m ∈ past, ∀ x, m.deed = .own x → ∀ group v, ¬m.Removes group v) ∨
    ∃ before listing after, past = before ++ listing :: after ∧ listing.Lists ns ∧
      (∀ m ∈ past, ∀ x, m.deed = .own x → ∀ group v, m.Removes group v →
        m ∈ after ∧ group = ns ∧ v ∈ listing.before.schemasOf ns ∧ isNamed name v = true) ∧
      (∀ m ∈ after, ∀ group v, m.Adds group v →
        ∀ m' ∈ past, ∀ x, m'.deed = .own x → ∀ group', ¬m'.Removes group' v) ∧
      ((∀ m ∈ past, ∀ client c x, m.deed = .own ⟨.call client c, x⟩ → ∃ y, x = .ok y) →
        ∀ v ∈ listing.before.schemasOf ns, isNamed name v = true → ∀ group, ¬r.Stores group v)

/-- A history with the exchanges of a drop. -/
theorem dropsListed_of_exchanges {ns name : String} {before after : List Exchange} {client : Client}
    {schemas : List StoredSchema} (hnumbered : r.Numbered) (hhistory : History P r t r')
    (hown : t.filterMap Moment.own? = before ++ ⟨.call client (.getSchemas ns), .ok schemas⟩ :: after)
    (h : DropExchanges ns name client schemas before after) : DropsListed ns name t r' := by
  obtain ⟨t₁, listing, t₂, rfl, hbefore, hlisting, hafter⟩ := exists_moment hown
  have hgranted : listing.Granted (.getSchemas ns) schemas := ⟨client, hlisting⟩
  obtain ⟨hlists, hschemas, -⟩ := hhistory.at_moment.2.1.lists hgranted
  refine .inr ⟨t₁, listing, t₂, rfl, hlists, ?_, ?_, ?_⟩
  · intro m hm x hx group v hv
    rw [← hschemas]
    exact listed_of_removes hhistory hnumbered hgranted h hafter hbefore hm hx hv
  · intro m hm group v hadds m' hm' x hx group' hremoves
    obtain ⟨-, -, hv, -⟩ := listed_of_removes hhistory hnumbered hgranted h hafter hbefore hm' hx hremoves
    exact not_listed_of_adds hhistory hnumbered hgranted hm hadds hv
  · intro hcalls v hv hnamed group
    rw [← hschemas] at hv
    refine not_stores_of_listed hhistory hnumbered hgranted h hafter hv hnamed ?_ group
    rintro ⟨request, reply⟩ hx w hrequest
    obtain rfl : request = deletion client ns w := hrequest
    obtain ⟨m, hm, hdeed⟩ := mem_own.mp (hafter ▸ hx)
    exact hcalls m (List.mem_append_right _ (List.mem_cons_of_mem _ hm)) client _ reply hdeed

/-- **Dropping loses no later version.**  Between any calls of other clients, and whatever fails, dropping a
table removes only versions that its listing of the group has shown at that moment, under the name in any letter
case; none that is added later is removed; and if none of its calls fails, none of those listed under the name
is left. -/
theorem drop_loses_no_later_version (e : Endpoint) (ns name : String) (s : Server) (others : List (List Call))
    (h : s.registry.Numbered) :
    let out := (Tables.drop e ns name).run.run Shared.answer (.start s others)
    DropsListed ns name out.state.past out.state.server.registry := by
  intro out
  have hfaults : s.FaultsAre fun _ _ => True := fun _ _ => trivial
  obtain ⟨t, hpast, hhistory, hown, -⟩ :=
    Dialogue.goesOn (Tables.drop e ns name).run (s := .start s others) hfaults
  rw [show out.state.past = t from hpast]
  obtain ⟨⟨x, hx, hstops⟩, hreading⟩ | ⟨before, client, schemas, after, hxs, hexchanges⟩ :=
    drop_exchanges (Dialogue.transcript_exchanges Shared.answer (Tables.drop e ns name).run (.start s others))
  · rw [← hown] at hx hreading
    obtain ⟨m, hm, hdeed⟩ := mem_own.mp hx
    refine .inl ⟨⟨m, hm, x, hdeed, hstops⟩, fun m hm x hx group v => ?_⟩
    exact Moment.not_removes_of_eq
      ((hhistory.happens m hm).reading hx (hreading x (mem_own.mpr ⟨m, hm, hx⟩))) group v
  · exact dropsListed_of_exchanges h hhistory (hown.trans hxs) hexchanges

/-- Others create the group with a version, and add one under another spelling once the versions have been
listed: the first is dropped, and the second stays. -/
theorem drop_loses_no_later_version_added :
    ∃ (e : Endpoint) (s : Server) (others : List (List Call)), s.registry.Numbered ∧
      let out := (Tables.drop e "sales" "ORDERS").run.run Shared.answer (.start s others)
      DropsListed "sales" "ORDERS" out.state.past out.state.server.registry ∧ out.result = .ok 1 ∧
        (out.state.server.registry.schemasOf "sales").map (fun v => v.version.id) = [1] := by
  let e : Endpoint := ⟨.text "localhost", 9092, .text "default"⟩
  let others : List (List Call) :=
    [[.addGroup "sales" (.ofOwner .null), .addSchema "sales" (schemaOf "Orders" "")], [],
      [.addSchema "sales" (schemaOf "orders" "")]]
  have hnumbered : (Server.start true).registry.Numbered := Registry.numbered_empty
  exact ⟨e, .start true, others, hnumbered,
    drop_loses_no_later_version e "sales" "ORDERS" (.start true) others hnumbered,
    eq_ok_of_toOption (by decide +kernel), by decide +kernel⟩

end Tables

end SchemaCatalog
