/-
  A written value is read back.

  1. **Echoes.**  `Echoes room v t` says that the value is written, where there is this room, as a text that
     spells the tree.  For lists and objects it follows from their parts, where a key that is no text comes back
     as the text it was written as.  The rules are about putting texts together, so no reader takes part in them.

  2. **Everything written has an echo.**  What can be written has parts that can be, and each scalar with a
     notation has an echo.  The tree takes the room that writing the value took, so there is room to read it.

  3. **Plain values** have themselves as the value of their echo: nothing is lost in a text of them
     (`read_of_write`).  They can be written if they are not too deep, and otherwise that is the obstacle
     (`write_of_deep`).
-/
import SchemaCatalog.Proofs.Json.Grammar
import SchemaCatalog.Proofs.Json.Doubles
import Mathlib.Data.List.Forall2
import Mathlib.Data.List.Nodup

namespace SchemaCatalog.Json

open Text (CodePoint Points)

/-- What there is for each thing of a list, in a list. -/
theorem exists_forall₂ {α β : Type} {R : α → β → Prop} {as : List α} (h : ∀ a ∈ as, ∃ b, R a b) :
    ∃ bs, List.Forall₂ R as bs := by
  induction as with
  | nil => exact ⟨[], .nil⟩
  | cons a as ih =>
    obtain ⟨⟨b, hb⟩, has⟩ := List.forall_mem_cons.mp h
    obtain ⟨bs, hbs⟩ := ih has
    exact ⟨b :: bs, .cons hb hbs⟩

/-! ## Echoes -/

/-- Where there is this room the value is written as a text that spells the tree, and that fits in, too. -/
def Echoes (room : Nat) (v : Value) (t : Tree) : Prop :=
  ∃ s : List Char, writeIn room v = .ok s ∧ Spells (s.map .char) t ∧ t.Within room

/-- The key is written as the name of the second member, and the value echoes there. -/
def EchoesMember (room : Nat) (m : Value × Value) (n : Points × Tree) : Prop :=
  (∃ name, keyText m.1 = .ok name ∧ readBack name = n.1) ∧ Echoes room m.2 n.2

theorem Spells.padded {s : Points} {t : Tree} (h : Spells s t) : Padded s t := by
  have hpadded := Padded.mk blank_nil h blank_nil
  rwa [List.append_nil, List.nil_append] at hpadded

/-- What is written is read as the value of its echo. -/
theorem Echoes.read [Nesting] {v : Value} {t : Tree} (h : Echoes Nesting.deepest v t) {s : List Char}
    (hs : write v = .ok s) : read (s.map .char) = .ok t.value := by
  obtain ⟨s', hs', hspells, hroom⟩ := h
  rw [write, hs'] at hs
  cases hs
  exact read_eq_ok_iff.mpr ⟨t, hspells.padded, hroom, rfl⟩

/-! ## Texts, lists and objects -/

variable {room : Nat}

theorem echoes_text (s : String) : Echoes room (.text s) (.text s) := by
  refine ⟨writeString s, rfl, .text ?_, Tree.within_text ..⟩
  have hspells := spells_writeString s
  rwa [readBack_string] at hspells

/-- A torn text may be read with two of its halves joined. -/
theorem echoes_torn (t : Text.Torn) : Echoes room (.torn t) (.text (readBack t.points)) :=
  ⟨writeString t.points, rfl, .text (spells_writeString _), Tree.within_text ..⟩

/-- A scalar echoes what its notation spells. -/
theorem echoes_scalar {v w : Value} {s : List Char} (hwrite : writeIn room v = .ok s) (h : SpellsScalar s w) :
    Echoes room v (.scalar w h.isScalar) := ⟨s, hwrite, .scalar h, Tree.within_scalar ..⟩

/-- The items of a list from one on, up to the closing bracket. -/
theorem spells_writeItems {x : Value} {t : Tree} {xs : List Value} {ts : List Tree} (hx : Echoes room x t)
    (h : List.Forall₂ (Echoes room) xs ts) :
    ∃ sx s : List Char, writeIn room x = .ok sx ∧ writeMoreItems room xs = .ok s ∧
      SpellsItems ((sx ++ s).map .char) (t :: ts) ∧ ∀ u ∈ t :: ts, u.Within room := by
  obtain ⟨sx, hwrite, hspells, hroom⟩ := hx
  induction h generalizing x t sx with
  | nil =>
    refine ⟨sx, [']'], hwrite, rfl, ?_, List.forall_mem_singleton.mpr hroom⟩
    rw [List.map_append]
    exact .last hspells.padded
  | cons hy _ ih =>
    obtain ⟨sy, hy, hspells', hroom'⟩ := hy
    obtain ⟨sy', s, hy', hs, hitems, hrooms⟩ := ih sy hy hspells' hroom'
    refine ⟨sx, ',' :: (sy' ++ s), hwrite, ?_, ?_, List.forall_mem_cons.mpr ⟨hroom, hrooms⟩⟩
    · rw [writeMoreItems, hy', hs]
      rfl
    · rw [List.map_append]
      exact .more hspells.padded hitems

/-- The echo of a list is the list of the echoes, with one more room. -/
theorem echoes_list {xs : List Value} {ts : List Tree} (h : List.Forall₂ (Echoes room) xs ts) :
    Echoes (room + 1) (.list xs) (.list ts) := by
  cases h with
  | nil => exact ⟨['[', ']'], rfl, .noItems blank_nil, fun _ ht => absurd ht List.not_mem_nil⟩
  | cons hx hxs =>
    obtain ⟨sx, s, hwrite, hs, hspells, hroom⟩ := spells_writeItems hx hxs
    refine ⟨'[' :: (sx ++ s), ?_, .list hspells, hroom⟩
    rw [writeIn, writeItems, hwrite, hs]
    rfl

/-- A member is written as its name, a colon and its value. -/
theorem spells_writeMember {m : Value × Value} {n : Points × Tree} (h : EchoesMember room m n) :
    ∃ s : List Char, writeMember room m = .ok s ∧ SpellsMember (s.map .char) n ∧ n.2.Within room := by
  obtain ⟨k, v⟩ := m
  obtain ⟨name, t⟩ := n
  obtain ⟨⟨key, hkey, rfl⟩, s, hwrite, hspells, hroom⟩ := h
  refine ⟨writeString key ++ ':' :: s, ?_, ?_, hroom⟩
  · rw [writeMember, hkey, hwrite]
    rfl
  · rw [List.map_append]
    exact .mk blank_nil (spells_writeString key) blank_nil hspells.padded

/-- The members of an object from one on, up to the closing brace. -/
theorem spells_writeMembers {m : Value × Value} {n : Points × Tree} {ms : List (Value × Value)}
    {ns : List (Points × Tree)} (hm : EchoesMember room m n) (h : List.Forall₂ (EchoesMember room) ms ns) :
    ∃ sm s : List Char, writeMember room m = .ok sm ∧ writeMoreMembers room ms = .ok s ∧
      SpellsMembers ((sm ++ s).map .char) (n :: ns) ∧ ∀ p ∈ n :: ns, p.2.Within room := by
  induction h generalizing m n with
  | nil =>
    obtain ⟨sm, hwrite, hspells, hroom⟩ := spells_writeMember hm
    refine ⟨sm, ['\x7d'], hwrite, rfl, ?_, List.forall_mem_singleton.mpr hroom⟩
    rw [List.map_append]
    exact .last hspells
  | cons hm' _ ih =>
    obtain ⟨sm, hwrite, hspells, hroom⟩ := spells_writeMember hm
    obtain ⟨sm', s, hwrite', hs, hmembers, hrooms⟩ := ih hm'
    refine ⟨sm, ',' :: (sm' ++ s), hwrite, ?_, ?_, List.forall_mem_cons.mpr ⟨hroom, hrooms⟩⟩
    · rw [writeMoreMembers, hwrite', hs]
      rfl
    · rw [List.map_append]
      exact .more hspells hmembers

/-- So it is with objects and their members. -/
theorem echoes_object {ms : List (Value × Value)} {ns : List (Points × Tree)}
    (h : List.Forall₂ (EchoesMember room) ms ns) : Echoes (room + 1) (.object ms) (.object ns) := by
  cases h with
  | nil => exact ⟨['\x7b', '\x7d'], rfl, .noMembers blank_nil, fun _ hn => absurd hn List.not_mem_nil⟩
  | cons hm hms =>
    obtain ⟨sm, s, hwrite, hs, hspells, hroom⟩ := spells_writeMembers hm hms
    refine ⟨'\x7b' :: (sm ++ s), ?_, .object hspells, hroom⟩
    rw [writeIn, writeMembers, hwrite, hs]
    rfl

/-! ## What has been written has written parts -/

theorem writeIn_of_writeMoreItems {xs : List Value} {s : List Char} (h : writeMoreItems room xs = .ok s) :
    ∀ x ∈ xs, ∃ sx, writeIn room x = .ok sx := by
  induction xs generalizing s with
  | nil => exact fun x hx => absurd hx List.not_mem_nil
  | cons x xs ih =>
    rw [writeMoreItems] at h
    obtain ⟨sx, hx, h⟩ := bind_eq_ok.mp h
    obtain ⟨sxs, hxs, -⟩ := bind_eq_ok.mp h
    exact List.forall_mem_cons.mpr ⟨⟨sx, hx⟩, ih hxs⟩

/-- A list that is written takes one step of the room, and its items are written with the rest. -/
theorem writeIn_of_list {xs : List Value} {s : List Char} (h : writeIn room (.list xs) = .ok s) :
    ∃ n, room = n + 1 ∧ ∀ x ∈ xs, ∃ sx, writeIn n x = .ok sx := by
  cases room with
  | zero => cases h
  | succ n =>
    refine ⟨n, rfl, ?_⟩
    rw [writeIn] at h
    obtain ⟨si, hitems, -⟩ := bind_eq_ok.mp h
    cases xs with
    | nil => exact fun x hx => absurd hx List.not_mem_nil
    | cons x xs =>
      rw [writeItems] at hitems
      obtain ⟨sx, hx, hitems⟩ := bind_eq_ok.mp hitems
      obtain ⟨sxs, hxs, -⟩ := bind_eq_ok.mp hitems
      exact List.forall_mem_cons.mpr ⟨⟨sx, hx⟩, writeIn_of_writeMoreItems hxs⟩

/-- The key and the value of a member can be written. -/
def IsWritten (room : Nat) (m : Value × Value) : Prop :=
  (∃ name, keyText m.1 = .ok name) ∧ ∃ s, writeIn room m.2 = .ok s

theorem isWritten_of_writeMember {m : Value × Value} {s : List Char} (h : writeMember room m = .ok s) :
    IsWritten room m := by
  obtain ⟨k, v⟩ := m
  rw [writeMember] at h
  obtain ⟨name, hkey, h⟩ := bind_eq_ok.mp h
  obtain ⟨sv, hv, -⟩ := bind_eq_ok.mp h
  exact ⟨⟨name, hkey⟩, sv, hv⟩

theorem isWritten_of_writeMoreMembers {ms : List (Value × Value)} {s : List Char}
    (h : writeMoreMembers room ms = .ok s) : ∀ m ∈ ms, IsWritten room m := by
  induction ms generalizing s with
  | nil => exact fun m hm => absurd hm List.not_mem_nil
  | cons m ms ih =>
    rw [writeMoreMembers] at h
    obtain ⟨sm, hm, h⟩ := bind_eq_ok.mp h
    obtain ⟨sms, hms, -⟩ := bind_eq_ok.mp h
    exact List.forall_mem_cons.mpr ⟨isWritten_of_writeMember hm, ih hms⟩

/-- An object that is written has room, and all its members are written. -/
theorem isWritten_of_object {ms : List (Value × Value)} {s : List Char}
    (h : writeIn room (.object ms) = .ok s) : ∃ n, room = n + 1 ∧ ∀ m ∈ ms, IsWritten n m := by
  cases room with
  | zero => cases h
  | succ n =>
    refine ⟨n, rfl, ?_⟩
    rw [writeIn] at h
    obtain ⟨si, hmembers, -⟩ := bind_eq_ok.mp h
    cases ms with
    | nil => exact fun m hm => absurd hm List.not_mem_nil
    | cons m ms =>
      rw [writeMembers] at hmembers
      obtain ⟨sm, hm, hmembers⟩ := bind_eq_ok.mp hmembers
      obtain ⟨sms, hms, -⟩ := bind_eq_ok.mp hmembers
      exact List.forall_mem_cons.mpr ⟨isWritten_of_writeMember hm, isWritten_of_writeMoreMembers hms⟩

/-! ## Everything written has an echo -/

/-- What does not nest is written as the spelling of something. -/
theorem exists_spells_scalarText {v : Value} {s : List Char} (h : scalarText v = .ok s) :
    ∃ w, SpellsScalar s w := by
  cases v with
  | null => cases h; exact ⟨.null, .word (by simp [words])⟩
  | bool b => exact ⟨.bool b, .word (by cases b <;> (cases h; simp [words]))⟩
  | int i =>
    rw [scalarText] at h
    split at h
    · cases h
    · rename_i hshort
      cases h
      exact ⟨.int i, .number (spells_intText i) (numeralOf_value i (Nat.not_lt.mp hshort))⟩
  | float x => cases h; exact spells_double x
  | nan => cases h; exact ⟨.nan, .word (by simp [words, Decimal.Words.document])⟩
  | text _ | torn _ | list _ | object _ | bytes _ | buffer _ => cases h

/-- Wherever the value can be written, it has an echo. -/
def HasEcho (v : Value) : Prop := ∀ room s, writeIn room v = .ok s → ∃ t, Echoes room v t

theorem hasEcho_scalar {v : Value} (h : ∀ room, writeIn room v = scalarText v) : HasEcho v := by
  intro room s hwrite
  have htext := hwrite
  rw [h] at htext
  obtain ⟨w, hw⟩ := exists_spells_scalarText htext
  exact ⟨_, echoes_scalar hwrite hw⟩

/-- A list has an echo if its items have. -/
theorem hasEcho_list {xs : List Value} (h : ∀ x ∈ xs, HasEcho x) : HasEcho (.list xs) := by
  intro room s hwrite
  obtain ⟨n, rfl, hitems⟩ := writeIn_of_list hwrite
  obtain ⟨ts, hts⟩ := exists_forall₂ fun x hx =>
    let ⟨sx, hsx⟩ := hitems x hx
    h x hx n sx hsx
  exact ⟨.list ts, echoes_list hts⟩

theorem exists_echoes {ms : List (Value × Value)} (h : ∀ m ∈ ms, HasEcho m.2) {s : List Char}
    (hwrite : writeIn room (.object ms) = .ok s) :
    ∃ n ns, room = n + 1 ∧ List.Forall₂ (EchoesMember n) ms ns := by
  obtain ⟨n, rfl, hwritten⟩ := isWritten_of_object hwrite
  have hmember : ∀ m ∈ ms, ∃ p, EchoesMember n m p := by
    intro m hm
    obtain ⟨⟨name, hkey⟩, sv, hv⟩ := hwritten m hm
    obtain ⟨t, ht⟩ := h m hm n sv hv
    exact ⟨(readBack name, t), ⟨name, hkey, rfl⟩, ht⟩
  obtain ⟨ns, hns⟩ := exists_forall₂ hmember
  exact ⟨n, ns, rfl, hns⟩

theorem hasEcho_object {ms : List (Value × Value)} (h : ∀ m ∈ ms, HasEcho m.2) : HasEcho (.object ms) := by
  intro room s hwrite
  obtain ⟨n, ns, rfl, hns⟩ := exists_echoes h hwrite
  exact ⟨.object ns, echoes_object hns⟩

mutual

/-- Every value that can be written has an echo. -/
theorem hasEcho : (v : Value) → HasEcho v
  | .list items => hasEcho_list (hasEcho_items items)
  | .object members => hasEcho_object (hasEcho_members members)
  | .text s => fun _ _ _ => ⟨.text s, echoes_text s⟩
  | .torn t => fun _ _ _ => ⟨.text (readBack t.points), echoes_torn t⟩
  | .null | .bool _ | .int _ | .float _ | .nan | .bytes _ | .buffer _ => hasEcho_scalar fun _ => rfl
termination_by structural v => v

theorem hasEcho_items : (xs : List Value) → ∀ x ∈ xs, HasEcho x
  | [] => fun _ hx => absurd hx List.not_mem_nil
  | x :: xs => List.forall_mem_cons.mpr ⟨hasEcho x, hasEcho_items xs⟩
termination_by structural xs => xs

theorem hasEcho_members : (ms : List (Value × Value)) → ∀ m ∈ ms, HasEcho m.2
  | [] => fun _ hm => absurd hm List.not_mem_nil
  | m :: ms => List.forall_mem_cons.mpr ⟨hasEcho_member m, hasEcho_members ms⟩
termination_by structural ms => ms

theorem hasEcho_member : (m : Value × Value) → HasEcho m.2
  | (_, v) => hasEcho v
termination_by structural m => m

end

/-! ## Plain values -/

/-- The values of a list of trees, item by item. -/
theorem map_value_of_forall₂ {xs : List Value} {ts : List Tree}
    (h : List.Forall₂ (fun v t => Echoes room v t ∧ t.value = v) xs ts) : ts.map Tree.value = xs := by
  induction h with
  | nil => rfl
  | cons hx _ ih => rw [List.map_cons, hx.2, ih]

theorem exists_named_echoes {ms : List (String × Value)}
    (h : ∀ m ∈ ms, ∃ t, Echoes room m.2 t ∧ t.value = m.2) :
    ∃ ns : List (String × Tree),
      List.Forall₂ (EchoesMember room) (Members.named ms) (ns.map fun n => ((n.1 : Points), n.2)) ∧
        (ns.map fun n => (n.1, n.2.value)) = ms := by
  induction ms with
  | nil => exact ⟨[], .nil, rfl⟩
  | cons m ms ih =>
    obtain ⟨⟨t, hecho, hvalue⟩, hms⟩ := List.forall_mem_cons.mp h
    obtain ⟨ns, hns, heq⟩ := ih hms
    refine ⟨(m.1, t) :: ns, .cons ⟨⟨m.1, rfl, readBack_string _⟩, hecho⟩ hns, ?_⟩
    rw [List.map_cons, heq, hvalue]

/-- The object of echoed members, whose names are strings and none twice. -/
theorem value_object_named {ns : List (String × Tree)} (h : (ns.map Prod.fst).Nodup) :
    (Tree.object (ns.map fun n => ((n.1 : Points), n.2))).value =
      .object (Members.named (ns.map fun n => (n.1, n.2.value))) := by
  have hnames : ((ns.map fun n => ((n.1 : Points), n.2)).map Prod.fst).Nodup := by
    have hmap := List.Nodup.map Value.points_injective h
    rwa [List.map_map] at hmap ⊢
  rw [Tree.value_object_of_nodup hnames, Tree.listed, Members.keyed, Members.named]
  simp only [List.map_map, Function.comp_def, Value.ofPoints_string]

/-- A plain value is the value of an echo of it, where there is room for the value. -/
theorem echoes_of_plain {v : Value} (h : v.Plain) (hroom : v.Within room) :
    ∃ t, Echoes room v t ∧ t.value = v := by
  induction h generalizing room with
  | null => exact ⟨_, echoes_scalar rfl (.word (by simp [words])), rfl⟩
  | bool b =>
    cases b <;> exact ⟨_, echoes_scalar rfl (.word (by simp [words])), rfl⟩
  | int i short =>
    have hwrite : writeIn room (.int i) = .ok (Decimal.intText i) := if_neg (Nat.not_lt.mpr short)
    exact ⟨_, echoes_scalar hwrite (.number (spells_intText i) (numeralOf_value i short)), rfl⟩
  | text s => exact ⟨.text s, echoes_text s, Value.ofPoints_string s⟩
  | list items _ ih =>
    obtain ⟨n, rfl, hitems⟩ := Value.within_list.mp hroom
    obtain ⟨ts, hts⟩ := exists_forall₂ fun x hx => ih x hx (hitems x hx)
    refine ⟨.list ts, echoes_list (hts.imp fun _ _ h => h.1), ?_⟩
    rw [Tree.value_list, map_value_of_forall₂ hts]
  | object members distinct _ ih =>
    obtain ⟨n, rfl, hmembers⟩ := Value.within_named.mp hroom
    obtain ⟨ns, hns, heq⟩ := exists_named_echoes fun m hm => ih m hm (hmembers m hm)
    refine ⟨_, echoes_object hns, ?_⟩
    rw [value_object_named, heq]
    rw [← heq, List.map_map] at distinct
    exact distinct

/-- There is room for what has been written. -/
theorem within_of_writeIn {v : Value} (h : v.Plain) {s : List Char} (hs : writeIn room v = .ok s) :
    v.Within room := by
  induction h generalizing room s with
  | null | bool _ | int _ _ | text _ => exact Value.within_scalar rfl
  | list items _ ih =>
    obtain ⟨n, rfl, hitems⟩ := writeIn_of_list hs
    exact Value.within_list.mpr ⟨n, rfl, fun x hx => let ⟨_, hsx⟩ := hitems x hx; ih x hx hsx⟩
  | object members _ _ ih =>
    obtain ⟨n, rfl, hmembers⟩ := isWritten_of_object hs
    refine Value.within_named.mpr ⟨n, rfl, fun m hm => ?_⟩
    obtain ⟨-, sv, hv⟩ := hmembers (.text m.1, m.2) (List.mem_map_of_mem hm)
    exact ih m hm hv

/-- Reading a written text: the text of a plain value has that value. -/
theorem read_of_write [Nesting] {v : Value} (h : v.Plain) {s : List Char} (hs : write v = .ok s) :
    read (s.map .char) = .ok v := by
  obtain ⟨t, hecho, hvalue⟩ := echoes_of_plain h (within_of_writeIn h hs)
  rw [hecho.read hs, hvalue]

/-- A plain value is written if it is not too deep. -/
theorem exists_write [Nesting] {v : Value} (h : v.Plain) (hroom : v.Within Nesting.deepest) :
    ∃ s, write v = .ok s := by
  obtain ⟨t, ⟨s, hs, -⟩, -⟩ := echoes_of_plain h hroom
  exact ⟨s, hs⟩

/-- Every echo of a plain value has this value. -/
theorem Echoes.value_of_plain {v : Value} {t : Tree} (h : Echoes room v t) (hv : v.Plain) : t.value = v := by
  obtain ⟨s, hs, hspells, ht⟩ := h
  obtain ⟨t', ⟨s', hs', hspells', ht'⟩, hvalue⟩ := echoes_of_plain hv (within_of_writeIn hv hs)
  rw [hs] at hs'
  cases hs'
  -- one text is read in one way
  have hread := (readsSpellings _).value [] hspells ht endsValue_nil (Nat.le_refl _)
  rw [(readsSpellings _).value [] hspells' ht' endsValue_nil (Nat.le_refl _), Except.ok.injEq, Prod.mk.injEq]
    at hread
  rw [← hread.1, hvalue]

/-! ## What keeps a plain value from being written -/

/-- Nothing but its depth keeps it from being written. -/
def OnlyTooDeep {α : Type} (x : Except Obstacle α) : Prop := ∀ o, x = .error o → o = .tooDeep

theorem OnlyTooDeep.pure {α : Type} (a : α) : OnlyTooDeep (pure a) := fun _ h => (by cases h)

/-- Two steps of writing fail only for depth if each does. -/
theorem OnlyTooDeep.bind {α β : Type} {x : Except Obstacle α} {f : α → Except Obstacle β} (hx : OnlyTooDeep x)
    (hf : ∀ a, OnlyTooDeep (f a)) : OnlyTooDeep (x >>= f) := by
  cases x with
  | error o =>
    intro o' ho'
    cases ho'
    exact hx o rfl
  | ok a => exact hf a

theorem onlyTooDeep_list {xs : List Value} (h : ∀ room, ∀ x ∈ xs, OnlyTooDeep (writeIn room x)) :
    OnlyTooDeep (writeIn room (.list xs)) := by
  have hmore : ∀ room, ∀ xs : List Value, (∀ x ∈ xs, OnlyTooDeep (writeIn room x)) →
      OnlyTooDeep (writeMoreItems room xs) := by
    intro room xs h
    induction xs with
    | nil => exact .pure _
    | cons x xs ih =>
      obtain ⟨hx, hxs⟩ := List.forall_mem_cons.mp h
      rw [writeMoreItems]
      exact hx.bind fun _ => (ih hxs).bind fun _ => .pure _
  cases room with
  | zero => exact fun o ho => by cases ho; rfl
  | succ n =>
    cases xs with
    | nil => exact .pure _
    | cons x xs =>
      obtain ⟨hx, hxs⟩ := List.forall_mem_cons.mp (h n)
      rw [writeIn, writeItems]
      exact (hx.bind fun _ => (hmore n xs hxs).bind fun _ => .pure _).bind fun _ => .pure _

/-- A text as a key is no obstacle. -/
theorem onlyTooDeep_named {ms : List (String × Value)} (h : ∀ room, ∀ m ∈ ms, OnlyTooDeep (writeIn room m.2)) :
    OnlyTooDeep (writeIn room (.object (Members.named ms))) := by
  have hmember : ∀ room (k : String) (v : Value), OnlyTooDeep (writeIn room v) →
      OnlyTooDeep (writeMember room (.text k, v)) := by
    intro room k v h
    rw [writeMember]
    exact h.bind fun _ => .pure _
  have hmore : ∀ room, ∀ ms : List (String × Value), (∀ m ∈ ms, OnlyTooDeep (writeIn room m.2)) →
      OnlyTooDeep (writeMoreMembers room (Members.named ms)) := by
    intro room ms h
    induction ms with
    | nil => exact .pure _
    | cons m ms ih =>
      obtain ⟨hm, hms⟩ := List.forall_mem_cons.mp h
      rw [Members.named_cons, writeMoreMembers]
      exact (hmember room m.1 m.2 hm).bind fun _ => (ih hms).bind fun _ => .pure _
  cases room with
  | zero => exact fun o ho => by cases ho; rfl
  | succ n =>
    cases ms with
    | nil => exact .pure _
    | cons m ms =>
      obtain ⟨hm, hms⟩ := List.forall_mem_cons.mp (h n)
      rw [Members.named_cons, writeIn, writeMembers]
      exact ((hmember n m.1 m.2 hm).bind fun _ => (hmore n ms hms).bind fun _ => .pure _).bind fun _ => .pure _

/-- Plain values have a notation, so only their depth can keep them from being written. -/
theorem onlyTooDeep_of_plain {v : Value} (h : v.Plain) : OnlyTooDeep (writeIn room v) := by
  induction h generalizing room with
  | null => exact .pure _
  | bool b => cases b <;> exact .pure _
  | int i short =>
    have hwrite : writeIn room (.int i) = .ok (Decimal.intText i) := if_neg (Nat.not_lt.mpr short)
    rw [hwrite]
    exact .pure _
  | text s => exact .pure _
  | list items _ ih => exact onlyTooDeep_list fun _ x hx => ih x hx
  | object members _ _ ih => exact onlyTooDeep_named fun _ m hm => ih m hm

/-- A plain value that is too deep is not written, for this reason. -/
theorem write_of_deep [Nesting] {v : Value} (h : v.Plain) (hroom : ¬v.Within Nesting.deepest) :
    write v = .error .tooDeep := by
  cases hwrite : write v with
  | ok s => exact absurd (within_of_writeIn h hwrite) hroom
  | error o => rw [onlyTooDeep_of_plain h o hwrite]

end SchemaCatalog.Json
