/-
  Texts that nest too deep.

  The reader stops at the first list or object for which there is no room, and nothing behind that place counts.
  `Overruns room s` says where this is in terms of the grammar: up to there the text is that of a value, and every
  item and member that ends before has room.  Reading fails for the depth of the text exactly there
  (`read_deep_iff`), so this failure is told apart from all faults, which are wrong with the text.

  Both directions are inductions on the allowance again.  That what stands in front of the place is read they take
  from `readsSpellings`, that it is a spelling from `spellsReadings`.
-/
import SchemaCatalog.Proofs.Json.Grammar

namespace SchemaCatalog.Json

open Text (CodePoint Points)

/-! ## The place where a text is too deep -/

mutual

/-- The text of a value in which, from the left, a list or an object is one too many for the room. -/
inductive Overruns : Nat → Points → Prop
  | list (rest : Points) : Overruns 0 ('[' :: rest)
  | object (rest : Points) : Overruns 0 ('\x7b' :: rest)
  | item {room : Nat} {s : Points} (h : OverrunsItems room s) : Overruns (room + 1) ('[' :: s)
  | member {room : Nat} {s : Points} (h : OverrunsMembers room s) : Overruns (room + 1) ('\x7b' :: s)

/-- One of the items of a list is that deep, and there is room for those before it. -/
inductive OverrunsItems : Nat → Points → Prop
  | here {room : Nat} {b s : Points} (hb : Blank b) (h : Overruns room s) : OverrunsItems room (b ++ s)
  | later {room : Nat} {s s' : Points} {t : Tree} (h : Padded s t) (ht : t.Within room)
    (hs : OverrunsItems room s') : OverrunsItems room (s ++ .char ',' :: s')

/-- The value of one of the members of an object is that deep, and there is room for those before it. -/
inductive OverrunsMembers : Nat → Points → Prop
  | here {room : Nat} {b k b' b'' s name : Points} (hb : Blank b) (hk : SpellsText k name) (hb' : Blank b')
    (hb'' : Blank b'') (h : Overruns room s) : OverrunsMembers room (b ++ (k ++ (b' ++ .char ':' :: (b'' ++ s))))
  | later {room : Nat} {s s' : Points} {m : Points × Tree} (h : SpellsMember s m) (hm : m.2.Within room)
    (hs : OverrunsMembers room s') : OverrunsMembers room (s ++ .char ',' :: s')

end

/-- A text that nests deeper than allowed. -/
def TooDeep [Nesting] (s : Points) : Prop := ∃ b s', Blank b ∧ s = b ++ s' ∧ Overruns Nesting.deepest s'

/-- As many brackets as there is room for, and one more, whatever follows. -/
theorem overruns_brackets (room : Nat) (rest : Points) :
    Overruns room (List.replicate (room + 1) (.char '[') ++ rest) := by
  induction room with
  | zero => exact .list rest
  | succ room ih =>
    have hitems : OverrunsItems room ([] ++ (List.replicate (room + 1) (.char '[') ++ rest)) := .here blank_nil ih
    exact .item hitems

/-! ## First characters -/

/-- A text that nests too deep starts as that of a value does. -/
theorem Overruns.exists_cons {room : Nat} {s : Points} (h : Overruns room s) :
    ∃ c cs, s = c :: cs ∧ StartsValue c := by
  have hmark : ∀ c ∈ ['[', '\x7b'], StartsValue c := by simp [StartsValue, isBlank]
  cases h with
  | list | item _ => exact ⟨'[', _, rfl, hmark _ (by decide)⟩
  | object | member _ => exact ⟨'\x7b', _, rfl, hmark _ (by decide)⟩

theorem Overruns.skipBlanks {room : Nat} {b s : Points} (hb : Blank b) (h : Overruns room s) :
    Json.skipBlanks (b ++ s) = s := by
  obtain ⟨c, cs, rfl, hc⟩ := h.exists_cons
  rw [skipBlanks_append hb, skipBlanks_cons hc.1]

/-- A list with an item that is too deep does not end before it. -/
theorem OverrunsItems.skipBlanks {room : Nat} {s : Points} (h : OverrunsItems room s) :
    ∃ c cs, Json.skipBlanks s = c :: cs ∧ c ≠ ']' := by
  cases h with
  | here hb h =>
    obtain ⟨c, cs, hs, hc⟩ := h.exists_cons
    exact ⟨c, cs, by rw [h.skipBlanks hb, hs], hc.2.1⟩
  | later h _ _ =>
    obtain ⟨hb, hs, -⟩ := h
    obtain ⟨c, cs, hcs, hc⟩ := hs.exists_cons
    rw [List.append_assoc, skipBlanks_append hb, List.append_assoc, hs.skipBlanks, hcs]
    exact ⟨c, _, rfl, hc.2.1⟩

/-- An object with a member that is too deep starts, behind blanks, with a name. -/
theorem OverrunsMembers.skipBlanks {room : Nat} {s : Points} (h : OverrunsMembers room s) :
    ∃ cs, Json.skipBlanks s = .char '"' :: cs := by
  cases h with
  | here hb hk =>
    obtain ⟨cs, hcs⟩ := hk.exists_cons
    rw [skipBlanks_append hb, hcs]
    exact ⟨_, skipBlanks_cons rfl _⟩
  | later h _ _ =>
    obtain ⟨hb, hk, -, -⟩ := h
    obtain ⟨cs, hcs⟩ := hk.exists_cons
    rw [List.append_assoc, skipBlanks_append hb, List.append_assoc, hcs]
    exact ⟨_, skipBlanks_cons rfl _⟩

/-! ## The reader stops there -/

/-- A fault that is not wrong with the text. -/
def FailsDeep {α : Type} (x : Except Fault α) : Prop := ∃ f, x = .error f ∧ f.problem.isDeep = true

/-- Reading with an allowance of this size fails where the text is too deep. -/
structure StopsAtDepth (n : Nat) : Prop where
  value : ∀ {room s}, Overruns room s → 2 * s.length ≤ n → FailsDeep (readValue n room s)
  items : ∀ {room s}, OverrunsItems room s → 2 * s.length + 1 ≤ n → FailsDeep (readItems n room (skipBlanks s))
  members : ∀ {room s}, OverrunsMembers room s → 2 * s.length + 1 ≤ n →
    FailsDeep (readMembers n room (skipBlanks s))

namespace StopsAtDepth

variable {n room : Nat} {s : Points}

/-- The reader comes to the place where there is no room, since all in front of it is read. -/
theorem succ_value (h : StopsAtDepth n) (hs : Overruns room s) (hn : 2 * s.length ≤ n + 1) :
    FailsDeep (readValue (n + 1) room s) := by
  cases hs with
  | list rest => exact ⟨_, rfl, rfl⟩
  | object rest => exact ⟨_, rfl, rfl⟩
  | item hs =>
    rw [List.length_cons] at hn
    obtain ⟨f, hf, hdeep⟩ := h.items hs (by omega)
    obtain ⟨c, cs, hcs, hc⟩ := hs.skipBlanks
    refine ⟨f, ?_, hdeep⟩
    rw [readValue]
    simp only [CodePoint.char.injEq, Char.reduceEq, if_false, if_true]
    rw [hcs] at hf ⊢
    split
    · rename_i heq
      cases heq
      exact absurd rfl hc
    · rw [hf]
  | member hs =>
    rw [List.length_cons] at hn
    obtain ⟨f, hf, hdeep⟩ := h.members hs (by omega)
    obtain ⟨cs, hcs⟩ := hs.skipBlanks
    refine ⟨f, ?_, hdeep⟩
    rw [readValue]
    simp only [CodePoint.char.injEq, Char.reduceEq, if_false, if_true]
    rw [hcs] at hf ⊢
    split
    · rename_i heq
      cases heq
    · rw [hf]

/-- In a list it is in an item, after those for which there is room. -/
theorem succ_items (h : StopsAtDepth n) (hs : OverrunsItems room s) (hn : 2 * s.length + 1 ≤ n + 1) :
    FailsDeep (readItems (n + 1) room (skipBlanks s)) := by
  cases hs with
  | here hb hs =>
    rw [List.length_append] at hn
    obtain ⟨f, hf, hdeep⟩ := h.value hs (by omega)
    exact ⟨f, by rw [hs.skipBlanks hb, readItems, hf], hdeep⟩
  | @later _ s s' _ hv ht hs =>
    simp only [List.length_append, List.length_cons] at hn
    obtain ⟨b, hb, hread⟩ := (readsSpellings n).padded hv ht _ (endsValue_cons (.inr (.inl rfl)) s') (by omega)
    obtain ⟨f, hf, hdeep⟩ := h.items hs (by omega)
    refine ⟨f, ?_, hdeep⟩
    rw [readItems, hread]
    simp only [skipBlanks_append hb, skipBlanks_cons (show isBlank ',' = false from rfl), CodePoint.char.injEq,
      Char.reduceEq, if_false, if_true, hf]

theorem succ_members (h : StopsAtDepth n) (hs : OverrunsMembers room s) (hn : 2 * s.length + 1 ≤ n + 1) :
    FailsDeep (readMembers (n + 1) room (skipBlanks s)) := by
  cases hs with
  | here hb hk hb' hb'' hs =>
    simp only [List.length_append, List.length_cons] at hn
    obtain ⟨f, hf, hdeep⟩ := h.value hs (by omega)
    exact ⟨f, by rw [readMembers_front hb hk hb', hs.skipBlanks hb'', hf]; rfl, hdeep⟩
  | @later _ _ s' _ hm hroom hs =>
    obtain ⟨hb, hk, hb', hv⟩ := hm
    simp only [List.length_append, List.length_cons] at hn
    obtain ⟨b, hblank, hread⟩ :=
      (readsSpellings n).padded hv hroom _ (endsValue_cons (.inr (.inl rfl)) s') (by omega)
    obtain ⟨f, hf, hdeep⟩ := h.members hs (by omega)
    refine ⟨f, ?_, hdeep⟩
    simp only [List.append_assoc, List.cons_append]
    rw [readMembers_front hb hk hb', hread]
    simp only [bind, Except.bind, readBehind, skipBlanks_append hblank,
      skipBlanks_cons (show isBlank ',' = false from rfl), CodePoint.char.injEq, Char.reduceEq, if_false, if_true,
      hf]

end StopsAtDepth

/-- A text that is too deep is not empty, so it is never left without an allowance. -/
theorem stopsAtDepth : ∀ n, StopsAtDepth n
  | 0 => by
    refine ⟨fun hs hn => ?_, fun _ hn => by omega, fun _ hn => by omega⟩
    obtain ⟨c, cs, rfl, -⟩ := hs.exists_cons
    rw [List.length_cons] at hn
    omega
  | n + 1 =>
    have h := stopsAtDepth n
    ⟨h.succ_value, h.succ_items, h.succ_members⟩

/-! ## It stops for this reason nowhere else -/

/-- Where reading with an allowance of this size fails for the depth of the text, it is too deep. -/
structure DeepWhereStopped (n : Nat) : Prop where
  value : ∀ {room s f}, readValue n room s = .error f → f.problem.isDeep = true → Overruns room s
  items : ∀ {room s f}, readItems n room (skipBlanks s) = .error f → f.problem.isDeep = true → OverrunsItems room s
  members : ∀ {room s f}, readMembers n room (skipBlanks s) = .error f → f.problem.isDeep = true →
    OverrunsMembers room s

namespace DeepWhereStopped

variable {n room : Nat} {s : Points} {f : Fault}

/-- Where the reader stops for want of room, there is none. -/
theorem succ_value (h : DeepWhereStopped n) (hread : readValue (n + 1) room s = .error f)
    (hdeep : f.problem.isDeep = true) : Overruns room s := by
  have hstep := valueStep n room s
  rw [hread] at hstep
  cases hstep with
  | fault hnot =>
    rw [hnot] at hdeep
    cases hdeep
  | deepList s => exact .list s
  | deepObject s => exact .object s
  | itemsFail hitems => exact .item (h.items hitems hdeep)
  | membersFail hmembers => exact .member (h.members hmembers hdeep)

theorem succ_items (h : DeepWhereStopped n) (hread : readItems (n + 1) room (skipBlanks s) = .error f)
    (hdeep : f.problem.isDeep = true) : OverrunsItems room s := by
  rw [readItems] at hread
  split at hread
  · rename_i hvalue
    cases hread
    obtain ⟨b, hb, hs⟩ := exists_skipped s
    rw [hs]
    exact .here hb (h.value hvalue hdeep)
  rename_i v after hvalue
  obtain ⟨u, t, rfl, ht, hroom, -⟩ := (spellsReadings n).padded hvalue
  split at hread
  · cases hread; cases hdeep
  rename_i c after' hskip
  rw [hskip]
  by_cases hend : c = ']'
  · rw [if_pos hend] at hread
    cases hread
  rw [if_neg hend] at hread
  by_cases hcomma : c = ','
  · rw [if_pos hcomma] at hread
    split at hread
    · rename_i hitems
      cases hread
      rw [hcomma]
      exact .later ht hroom (h.items hitems hdeep)
    · cases hread
  · rw [if_neg hcomma] at hread
    cases hread
    cases hdeep

theorem succ_members (h : DeepWhereStopped n) (hread : readMembers (n + 1) room (skipBlanks s) = .error f)
    (hdeep : f.problem.isDeep = true) : OverrunsMembers room s := by
  obtain ⟨f', hf, hnot⟩ | ⟨b, k, b', name, behind, hb, hk, hb', rfl⟩ := exists_front n room s
  · rw [hf] at hread
    cases hread
    rw [hnot] at hdeep
    cases hdeep
  rw [readMembers_front hb hk hb'] at hread
  cases hvalue : readValue n room (skipBlanks behind) with
  | error f' =>
    rw [hvalue] at hread
    cases hread
    obtain ⟨b'', hb'', hbehind⟩ := exists_skipped behind
    rw [hbehind]
    exact .here hb hk hb' hb'' (h.value hvalue hdeep)
  | ok member =>
    -- the member was read, so the place is behind it
    obtain ⟨v, after⟩ := member
    obtain ⟨u, t, rfl, ht, hroom, -⟩ := (spellsReadings n).padded hvalue
    have hmember : SpellsMember (b ++ (k ++ (b' ++ .char ':' :: u))) (name, t) := .mk hb hk hb' ht
    rw [hvalue] at hread
    simp only [bind, Except.bind, readBehind] at hread
    split at hread
    · cases hread; cases hdeep
    rename_i c after' hskip
    rw [hskip]
    by_cases hend : c = '\x7d'
    · rw [if_pos hend] at hread
      cases hread
    rw [if_neg hend] at hread
    by_cases hcomma : c = ','
    · rw [if_pos hcomma] at hread
      split at hread
      · rename_i hmembers
        cases hread
        rw [hcomma]
        simpa using OverrunsMembers.later hmember hroom (h.members hmembers hdeep)
      · cases hread
    · rw [if_neg hcomma] at hread
      cases hread
      cases hdeep

end DeepWhereStopped

/-- Without an allowance nothing is read, and that is a fault of another sort. -/
theorem deepWhereStopped : ∀ n, DeepWhereStopped n
  | 0 =>
    ⟨fun h hd => (by cases h; cases hd), fun h hd => (by cases h; cases hd),
      fun h hd => (by cases h; cases hd)⟩
  | n + 1 =>
    have h := deepWhereStopped n
    ⟨h.succ_value, h.succ_items, h.succ_members⟩

/-! ## A whole text -/

/-- **Depth.**  Reading fails for the depth of a text exactly if the text nests deeper than is allowed. -/
theorem read_deep_iff [Nesting] {s : Points} :
    (∃ f, read s = .error f ∧ f.problem.isDeep = true) ↔ TooDeep s := by
  constructor
  · rintro ⟨f, hread, hdeep⟩
    unfold read at hread
    split at hread
    · cases hread; cases hdeep
    split at hread
    · rename_i hvalue
      cases hread
      obtain ⟨b, hb, hs⟩ := exists_skipped s
      exact ⟨b, _, hb, hs, (deepWhereStopped _).value hvalue hdeep⟩
    split at hread
    · cases hread
    · cases hread; cases hdeep
  · rintro ⟨b, s', hb, rfl, h⟩
    obtain ⟨c, cs, hcs, hc⟩ := h.exists_cons
    have hhead : (b ++ s').head? ≠ some (.char '\uFEFF') := by
      cases b with
      | nil =>
        rw [List.nil_append, hcs, List.head?_cons, ne_eq, Option.some.injEq]
        exact hc.2.2
      | cons d b =>
        rw [List.cons_append, List.head?_cons, ne_eq, Option.some.injEq]
        rintro rfl
        exact absurd (hb _ List.mem_cons_self) (by decide)
    obtain ⟨f, hf, hdeep⟩ :=
      (stopsAtDepth (2 * (b ++ s').length + 2)).value h (by rw [List.length_append]; omega)
    exact ⟨f, by rw [read, if_neg hhead, h.skipBlanks hb, hf], hdeep⟩

/-- So many lists inside one another, the innermost empty. -/
def brackets (n : Nat) : String := String.ofList (List.replicate n '[' ++ List.replicate n ']')

/-- Lists inside one another are too deep if they are more than there is room for. -/
theorem tooDeep_brackets [Nesting] {n : Nat} (h : Nesting.deepest < n) : TooDeep (brackets n) := by
  obtain ⟨more, rfl⟩ := Nat.exists_eq_add_of_lt h
  have hsplit : (brackets (Nesting.deepest + more + 1) : Points) =
      List.replicate (Nesting.deepest + 1) (.char '[') ++
        (List.replicate more (.char '[') ++ List.replicate (Nesting.deepest + more + 1) (.char ']')) := by
    rw [brackets, String.toList_ofList, List.map_append, List.map_replicate, List.map_replicate,
      ← List.append_assoc, List.replicate_append_replicate, Nat.add_right_comm]
  exact ⟨[], _, blank_nil, hsplit, overruns_brackets _ _⟩

end SchemaCatalog.Json
