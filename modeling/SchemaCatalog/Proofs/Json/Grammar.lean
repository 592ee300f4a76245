/-
  What a JSON text means, and that the reader finds exactly that.

  1. **Trees.**  A `Tree` is a JSON text taken apart.  It has every member that was written, a repeated one as
     often as it stands there, and all its members have texts as names, whole or torn.  Its value has the
     members of each object put together: of those with one name the first gives the place and the last the
     value.

  2. **Grammar.**  `Spells s t` says that the text spells the tree.  It is about putting texts together and
     knows neither a reader nor a place in a text.

  3. **Reading** is the two one after the other: `read_eq_ok_iff`.  A text is read if the tree that it spells
     nests no deeper than there is room, and repeated members count for that, too.  Both directions are
     inductions on the allowance of the reader; what one of its steps can come to is said once, in `ValueStep`
     and in the lemmas about the front of a member.  A spelling is read whatever stands behind it, as long as it
     can end a value, and with every allowance of at least twice its length; two steps lead from a list to its
     first item and each of them reads at most one character (a bracket, a comma), hence the factor.  So the
     allowance never decides anything, and what is no spelling is refused for that reason alone.
-/
import SchemaCatalog.Proofs.Value.Latest
import SchemaCatalog.Proofs.Json.Strings
import SchemaCatalog.Proofs.Json.Scalars

namespace SchemaCatalog.Json

open Text (CodePoint Points)

/-! ## Trees -/

/-- A JSON text taken apart. -/
inductive Tree where
  | scalar (v : Value) (h : IsScalar v)
  | text (t : Points)
  | list (items : List Tree)
  | object (members : List (Points × Tree))

namespace Tree

mutual

/-- The value of a tree: of members with one name the first gives the place and the last the value. -/
def value : Tree → Value
  | .scalar v _ => v
  | .text t => .ofPoints t
  | .list items => .list (values items)
  | .object members => .object (Members.ofList (memberValues members))
termination_by structural t => t

/-- The values of the items of a list. -/
def values : List Tree → List Value
  | [] => []
  | x :: xs => value x :: values xs
termination_by structural xs => xs

/-- The members of an object, each with its value. -/
def memberValues : List (Points × Tree) → Members
  | [] => []
  | m :: ms => memberValue m :: memberValues ms
termination_by structural ms => ms

/-- A member with its value. -/
def memberValue : Points × Tree → Value × Value
  | (k, t) => (.ofPoints k, value t)
termination_by structural m => m

end

/-- The members of an object with their values, repeated ones included. -/
def listed (ms : List (Points × Tree)) : Members := Members.keyed Value.ofPoints (ms.map fun m => (m.1, m.2.value))

theorem listed_cons (k : Points) (t : Tree) (ms : List (Points × Tree)) :
    listed ((k, t) :: ms) = (.ofPoints k, t.value) :: listed ms := rfl

theorem values_eq (items : List Tree) : values items = items.map value := by
  induction items with
  | nil => rfl
  | cons x xs ih => rw [values, ih, List.map_cons]

theorem memberValues_eq (ms : List (Points × Tree)) : memberValues ms = listed ms := by
  induction ms with
  | nil => rfl
  | cons m ms ih =>
    obtain ⟨k, t⟩ := m
    rw [memberValues, ih, memberValue, listed_cons]

theorem value_text (t : Points) : (Tree.text t).value = .ofPoints t := by rw [value]

/-- The value of a list is the list of the values. -/
theorem value_list (items : List Tree) : (Tree.list items).value = .list (items.map value) := by
  rw [value, values_eq]

/-- What an object has under a name: of the members of this name the last. -/
def under (name : String) (ms : List (Points × Tree)) : Option Tree := lastUnder (name : Points) ms

/-- The members of an object put together. -/
def table (ms : List (Points × Tree)) : Members :=
  Members.keyed Value.ofPoints ((latest ms).map fun m => (m.1, m.2.value))

/-- The value of an object is the table of its members, of which the last of a name counts. -/
theorem value_object (ms : List (Points × Tree)) : (Tree.object ms).value = .object (table ms) := by
  rw [value, memberValues_eq, listed, Members.ofList_keyed_latest Value.same_ofPoints, latest_map, table]

/-- An object with no name twice has its members as they stand there. -/
theorem value_object_of_nodup {ms : List (Points × Tree)} (h : (ms.map Prod.fst).Nodup) :
    (Tree.object ms).value = .object (listed ms) := by
  rw [value_object, table, latest_of_nodup h, listed]

theorem value_object_singleton (k : Points) (t : Tree) :
    (Tree.object [(k, t)]).value = .object [(.ofPoints k, t.value)] := by
  have hnames : ([(k, t)].map Prod.fst).Nodup := by simp
  rw [value_object_of_nodup hnames]
  rfl

/-- At most so many lists and objects lie inside one another. -/
def Within : Nat → Tree → Prop
  | _, .scalar .. | _, .text _ => True
  | 0, _ => False
  | n + 1, .list items => ∀ t ∈ items, Within n t
  | n + 1, .object members => ∀ m ∈ members, Within n m.2

/-- What does not nest has room anywhere. -/
theorem within_scalar (n : Nat) (v : Value) (h : IsScalar v) : (Tree.scalar v h).Within n := by
  cases n <;> trivial

theorem within_text (n : Nat) (t : Points) : (Tree.text t).Within n := by cases n <;> trivial

end Tree

/-! ## The grammar -/

/-- A text of blanks. -/
def Blank (b : Points) : Prop := ∀ c ∈ b, isBlank c = true

mutual

/-- The spellings of a tree. -/
inductive Spells : Points → Tree → Prop
  | scalar {s : List Char} {v : Value} (h : SpellsScalar s v) : Spells (s.map .char) (.scalar v h.isScalar)
  | text {s t : Points} (h : SpellsText s t) : Spells s (.text t)
  | noItems {b : Points} (hb : Blank b) : Spells ('[' :: (b ++ [.char ']'])) (.list [])
  | list {s : Points} {ts : List Tree} (h : SpellsItems s ts) : Spells ('[' :: s) (.list ts)
  | noMembers {b : Points} (hb : Blank b) : Spells ('\x7b' :: (b ++ [.char '\x7d'])) (.object [])
  | object {s : Points} {ms : List (Points × Tree)} (h : SpellsMembers s ms) :
    Spells ('\x7b' :: s) (.object ms)

/-- The spellings of a tree with blanks around it. -/
inductive Padded : Points → Tree → Prop
  | mk {b s b' : Points} {t : Tree} (hb : Blank b) (h : Spells s t) (hb' : Blank b') :
    Padded (b ++ (s ++ b')) t

/-- The spellings of the items of a list up to its closing bracket. -/
inductive SpellsItems : Points → List Tree → Prop
  | last {s : Points} {t : Tree} (h : Padded s t) : SpellsItems (s ++ [.char ']']) [t]
  | more {s s' : Points} {t : Tree} {ts : List Tree} (h : Padded s t) (hs : SpellsItems s' ts) :
    SpellsItems (s ++ .char ',' :: s') (t :: ts)

/-- The spellings of a member: its name, a colon and its tree. -/
inductive SpellsMember : Points → Points × Tree → Prop
  | mk {b k b' s : Points} {name : Points} {t : Tree} (hb : Blank b) (hk : SpellsText k name) (hb' : Blank b')
    (h : Padded s t) : SpellsMember (b ++ (k ++ (b' ++ .char ':' :: s))) (name, t)

/-- The spellings of the members of an object up to its closing brace. -/
inductive SpellsMembers : Points → List (Points × Tree) → Prop
  | last {s : Points} {m : Points × Tree} (h : SpellsMember s m) : SpellsMembers (s ++ [.char '\x7d']) [m]
  | more {s s' : Points} {m : Points × Tree} {ms : List (Points × Tree)} (h : SpellsMember s m)
    (hs : SpellsMembers s' ms) : SpellsMembers (s ++ .char ',' :: s') (m :: ms)

end

/-! ## Blanks -/

theorem blank_nil : Blank [] := fun _ hc => absurd hc List.not_mem_nil

/-- Nothing is skipped where something visible stands. -/
theorem skipBlanks_cons {c : CodePoint} (h : isBlank c = false) (rest : Points) :
    skipBlanks (c :: rest) = c :: rest := by
  rw [skipBlanks, List.dropWhile_cons_of_neg (by simp [h])]

/-- Blanks in front of a text are passed over. -/
theorem skipBlanks_append {b : Points} (hb : Blank b) (s : Points) :
    skipBlanks (b ++ s) = skipBlanks s := List.dropWhile_append_of_pos hb

/-- What has been skipped is blank. -/
theorem exists_skipped (s : Points) : ∃ b, Blank b ∧ s = b ++ skipBlanks s :=
  ⟨s.takeWhile isBlank, fun _ hc => List.mem_takeWhile_imp hc, List.takeWhile_append_dropWhile.symm⟩

/-- Behind blanks a value can end if it can end behind them. -/
theorem EndsValue.blank {b rest : Points} (hb : Blank b) (hr : EndsValue rest) : EndsValue (b ++ rest) := by
  cases b with
  | nil => exact hr
  | cons c b => exact endsValue_cons (.inl (hb c List.mem_cons_self)) _

/-! ## First characters -/

/-- The characters that a spelling can start with: not skipped, no end of a list, and no mark of the byte
order. -/
def StartsValue (c : CodePoint) : Prop := isBlank c = false ∧ c ≠ ']' ∧ c ≠ '\uFEFF'

/-- A scalar does not start like a text, a list or an object. -/
theorem StartsScalar.starts {c : Char} (h : StartsScalar c) :
    StartsValue c ∧ (c : CodePoint) ≠ '"' ∧ (c : CodePoint) ≠ '[' ∧ (c : CodePoint) ≠ '\x7b' := by
  suffices hne : isBlank c = false ∧ (c ≠ ']' ∧ c ≠ '\uFEFF') ∧ c ≠ '"' ∧ c ≠ '[' ∧ c ≠ '\x7b' by
    simpa [StartsValue, and_assoc] using hne
  rcases h with hdigit | hmem
  · have hne : ∀ d : Char, d.isDigit = false → c ≠ d := by rintro d hd rfl; rw [hdigit] at hd; cases hd
    have hblank : isBlank c = false := by
      simp [isBlank, hne ' ' (by decide), hne '\t' (by decide), hne '\n' (by decide), hne '\r' (by decide)]
    exact ⟨hblank, ⟨hne _ (by decide), hne _ (by decide)⟩, hne _ (by decide), hne _ (by decide),
      hne _ (by decide)⟩
  · have hall : ∀ c ∈ ['-', 'n', 't', 'f', 'N', 'I'], isBlank c = false ∧ (c ≠ ']' ∧ c ≠ '\uFEFF') ∧
        c ≠ '"' ∧ c ≠ '[' ∧ c ≠ '\x7b' := by simp [isBlank]
    exact hall c hmem

theorem SpellsText.exists_cons {s t : Points} (h : SpellsText s t) : ∃ cs, s = .char '"' :: cs :=
  let ⟨_, _, hs, _⟩ := h
  ⟨_, hs⟩

/-- A value is spelled by at least one character, which tells the sort of value. -/
theorem Spells.exists_cons {s : Points} {t : Tree} (h : Spells s t) :
    ∃ c cs, s = c :: cs ∧ StartsValue c := by
  have hmark : ∀ c ∈ ['"', '[', '\x7b'], StartsValue c := by simp [StartsValue, isBlank]
  cases h with
  | scalar h =>
    obtain ⟨c, cs, rfl, hc⟩ := h.exists_cons
    exact ⟨c, cs.map .char, rfl, hc.starts.1⟩
  | text h =>
    obtain ⟨cs, hs⟩ := h.exists_cons
    exact ⟨'"', cs, hs, hmark _ (by decide)⟩
  | noItems _ | list _ => exact ⟨'[', _, rfl, hmark _ (by decide)⟩
  | noMembers _ | object _ => exact ⟨'\x7b', _, rfl, hmark _ (by decide)⟩

/-- A value does not start with a blank. -/
theorem Spells.skipBlanks {s : Points} {t : Tree} (h : Spells s t) (rest : Points) :
    skipBlanks (s ++ rest) = s ++ rest := by
  obtain ⟨c, cs, hs, hc⟩ := h.exists_cons
  rw [hs, List.cons_append, skipBlanks_cons hc.1]

/-- The items of a list start, behind blanks, with the first of them. -/
theorem SpellsItems.skipBlanks {s : Points} {ts : List Tree} (h : SpellsItems s ts) (rest : Points) :
    ∃ c cs, Json.skipBlanks (s ++ rest) = c :: cs ∧ c ≠ ']' := by
  cases h with
  | last h | more h _ =>
    obtain ⟨hb, hs, -⟩ := h
    obtain ⟨c, cs, hcs, hc⟩ := hs.exists_cons
    rw [List.append_assoc, List.append_assoc, skipBlanks_append hb, List.append_assoc, hs.skipBlanks, hcs]
    exact ⟨c, _, rfl, hc.2.1⟩

/-- The members of an object start, behind blanks, with the name of the first. -/
theorem SpellsMembers.skipBlanks {s : Points} {ms : List (Points × Tree)} (h : SpellsMembers s ms)
    (rest : Points) : ∃ cs, Json.skipBlanks (s ++ rest) = .char '"' :: cs := by
  cases h with
  | last h | more h _ =>
    obtain ⟨hb, hk, -, -⟩ := h
    obtain ⟨cs, hcs⟩ := hk.exists_cons
    rw [List.append_assoc, List.append_assoc, skipBlanks_append hb, hcs]
    exact ⟨_, skipBlanks_cons rfl _⟩

/-! ## The steps of the reader

What one step can come to, whatever it was called for: a fault of the text, a value without items and members,
no room, or whatever the items and members come to.  Both what is read and what is refused for its depth follow
from here by induction on the allowance. -/

/-- What a step of reading a value can come to, with an allowance of this size left. -/
inductive ValueStep (n : Nat) : Nat → Points → Except Fault (Value × Points) → Prop
  /-- The text is at fault. -/
  | fault {room : Nat} {s : Points} {f : Fault} (h : f.problem.isDeep = false) : ValueStep n room s (.error f)
  /-- A value is read without another step. -/
  | leaf {room : Nat} {u : Points} {t : Tree} (hu : Spells u t) (hroom : t.Within room) (rest : Points) :
    ValueStep n room (u ++ rest) (.ok (t.value, rest))
  | deepList (s : Points) : ValueStep n 0 ('[' :: s) (.error ⟨.deepList, '[' :: s⟩)
  | deepObject (s : Points) : ValueStep n 0 ('\x7b' :: s) (.error ⟨.deepObject, '\x7b' :: s⟩)
  | items {room : Nat} {s rest : Points} {vs : List Value} (h : readItems n room (skipBlanks s) = .ok (vs, rest)) :
    ValueStep n (room + 1) ('[' :: s) (.ok (.list vs, rest))
  | itemsFail {room : Nat} {s : Points} {f : Fault} (h : readItems n room (skipBlanks s) = .error f) :
    ValueStep n (room + 1) ('[' :: s) (.error f)
  | members {room : Nat} {s rest : Points} {ms : Members}
    (h : readMembers n room (skipBlanks s) = .ok (ms, rest)) :
    ValueStep n (room + 1) ('\x7b' :: s) (.ok (.object (Members.ofList ms), rest))
  | membersFail {room : Nat} {s : Points} {f : Fault} (h : readMembers n room (skipBlanks s) = .error f) :
    ValueStep n (room + 1) ('\x7b' :: s) (.error f)

/-- The first character tells which step it is. -/
theorem valueStep (n room : Nat) (s : Points) : ValueStep n room s (readValue (n + 1) room s) := by
  cases s with
  | nil => exact .fault rfl
  | cons c s =>
    rw [readValue.eq_def]
    simp only
    by_cases htext : c = '"'
    · rw [if_pos htext, htext]
      split
      · rename_i hstring
        exact .fault (not_isDeep_of_readString hstring)
      · rename_i t rest hstring
        obtain ⟨u, rfl, hu⟩ := spells_of_readString hstring
        rw [← Tree.value_text]
        exact .leaf (.text hu) (Tree.within_text _ t) rest
    rw [if_neg htext]
    by_cases hlist : c = '['
    · rw [if_pos hlist, hlist]
      cases room with
      | zero => exact .deepList s
      | succ room =>
        obtain ⟨b, hb, hs⟩ := exists_skipped s
        simp only
        split
        · -- nothing between the brackets but blanks
          rename_i rest hskip
          have hroom : (Tree.list []).Within (room + 1) := fun t ht => absurd ht List.not_mem_nil
          have hstep := ValueStep.leaf (n := n) (.noItems hb) hroom rest
          rw [hs, hskip]
          simpa [Tree.value_list] using hstep
        · split
          · rename_i hitems
            exact .itemsFail hitems
          · rename_i hitems
            exact .items hitems
    rw [if_neg hlist]
    by_cases hobject : c = '\x7b'
    · rw [if_pos hobject, hobject]
      cases room with
      | zero => exact .deepObject s
      | succ room =>
        obtain ⟨b, hb, hs⟩ := exists_skipped s
        simp only
        split
        · rename_i rest hskip
          have hroom : (Tree.object []).Within (room + 1) := fun m hm => absurd hm List.not_mem_nil
          have hstep := ValueStep.leaf (n := n) (.noMembers hb) hroom rest
          have hvalue : (Tree.object []).value = .object [] := rfl
          rw [hs, hskip]
          simpa [hvalue] using hstep
        · split
          · rename_i hmembers
            exact .membersFail hmembers
          · rename_i hmembers
            exact .members hmembers
    rw [if_neg hobject]
    cases hscalar : readScalarOf (c :: s) with
    | error f => exact .fault (not_isDeep_of_readScalarOf hscalar)
    | ok r =>
      obtain ⟨v, rest⟩ := r
      obtain ⟨u, hu, hv⟩ := spells_of_readScalarOf hscalar
      rw [hu]
      exact .leaf (.scalar hv) (Tree.within_scalar _ v _) rest

/-- What a step and the one behind it give together. -/
theorem bind_eq_ok {ε α β : Type} {x : Except ε α} {f : α → Except ε β} {b : β} :
    x >>= f = .ok b ↔ ∃ a, x = .ok a ∧ f a = .ok b := by
  cases x with
  | error e => exact ⟨fun h => (by cases h), fun ⟨_, h, _⟩ => (by cases h)⟩
  | ok a => exact ⟨fun h => ⟨a, rfl, h⟩, fun ⟨_, h, hf⟩ => by cases h; exact hf⟩

/-- What is left to do behind the value of a member: there is the end, or a comma and the other members. -/
def readBehind (n room : Nat) (name : Points) (member : Value × Points) : Except Fault (Members × Points) :=
  match skipBlanks member.2 with
  | [] => .error ⟨.comma, []⟩
  | c :: rest =>
    if c = '\x7d' then .ok ([(.ofPoints name, member.1)], rest)
    else if c = ',' then
      match readMembers n room (skipBlanks rest) with
      | .error f => .error f
      | .ok (members, rest) => .ok ((.ofPoints name, member.1) :: members, rest)
    else .error ⟨.comma, c :: rest⟩

/-- Behind a name and its colon the reader goes on with the value and with what is left. -/
theorem readMembers_front {n room : Nat} {b k b' name : Points} (hb : Blank b) (hk : SpellsText k name)
    (hb' : Blank b') (s : Points) :
    readMembers (n + 1) room (skipBlanks (b ++ (k ++ (b' ++ .char ':' :: s)))) =
      readValue n room (skipBlanks s) >>= readBehind n room name := by
  obtain ⟨cs, rfl⟩ := hk.exists_cons
  rw [skipBlanks_append hb, List.cons_append, skipBlanks_cons (show isBlank '"' = false from rfl), readMembers]
  simp only [if_true, readString_of_spells hk, skipBlanks_append hb',
    skipBlanks_cons (show isBlank ':' = false from rfl)]
  cases readValue n room (skipBlanks s) with
  | error f => rfl
  | ok member => rfl

/-- Without a name and a colon no members are read, however much room there is. -/
theorem exists_front (n room : Nat) (s : Points) :
    (∃ f, readMembers (n + 1) room (skipBlanks s) = .error f ∧ f.problem.isDeep = false) ∨
      ∃ b k b' name behind, Blank b ∧ SpellsText k name ∧ Blank b' ∧
        s = b ++ (k ++ (b' ++ .char ':' :: behind)) := by
  obtain ⟨b, hb, hs⟩ := exists_skipped s
  cases hskip : skipBlanks s with
  | nil => exact .inl ⟨_, rfl, rfl⟩
  | cons q s' =>
    rw [hskip] at hs
    by_cases hquote : q = '"'
    swap
    · exact .inl ⟨_, by rw [readMembers, if_neg hquote], rfl⟩
    rw [hquote] at hs ⊢
    cases hstring : readString s' with
    | error f => exact .inl ⟨f, by simp only [readMembers, if_true, hstring], not_isDeep_of_readString hstring⟩
    | ok r =>
      obtain ⟨name, behindName⟩ := r
      obtain ⟨u, rfl, hu⟩ := spells_of_readString hstring
      obtain ⟨b', hb', hbehindName⟩ := exists_skipped behindName
      cases hcolon : skipBlanks behindName with
      | nil => exact .inl ⟨⟨.colon, []⟩, by simp only [readMembers, if_true, hstring, hcolon], rfl⟩
      | cons c behind =>
        by_cases hc : c = ':'
        swap
        · exact .inl ⟨⟨.colon, c :: behind⟩, by simp only [readMembers, if_true, hstring, hcolon, if_neg hc], rfl⟩
        rw [hcolon, hc] at hbehindName
        exact .inr ⟨b, .char '"' :: u, b', name, behind, hb, hu, hb', by rw [hs, hbehindName]; rfl⟩

/-! ## Spellings are read -/

/-- What spells something is read with an allowance of this size, where there is room for it. -/
structure ReadsSpellings (n : Nat) : Prop where
  value : ∀ {room s t} rest, Spells s t → t.Within room → EndsValue rest → 2 * s.length ≤ n →
    readValue n room (s ++ rest) = .ok (t.value, rest)
  items : ∀ {room s ts} rest, SpellsItems s ts → (∀ t ∈ ts, t.Within room) → 2 * s.length + 1 ≤ n →
    readItems n room (skipBlanks (s ++ rest)) = .ok (ts.map Tree.value, rest)
  members : ∀ {room s ms} rest, SpellsMembers s ms → (∀ m ∈ ms, m.2.Within room) → 2 * s.length + 1 ≤ n →
    readMembers n room (skipBlanks (s ++ rest)) = .ok (Tree.listed ms, rest)

namespace ReadsSpellings

variable {n room : Nat}

/-- The blanks in front of a value are skipped, those behind it are left. -/
theorem padded (h : ReadsSpellings n) {s : Points} {t : Tree} (hs : Padded s t) (ht : t.Within room)
    (rest : Points)
    (hr : EndsValue rest) (hn : 2 * s.length ≤ n) :
    ∃ b, Blank b ∧ readValue n room (skipBlanks (s ++ rest)) = .ok (t.value, b ++ rest) := by
  obtain ⟨hb, hv, hb'⟩ := hs
  simp only [List.length_append] at hn
  refine ⟨_, hb', ?_⟩
  rw [List.append_assoc, skipBlanks_append hb, List.append_assoc, hv.skipBlanks,
    h.value _ hv ht (hr.blank hb') (by omega)]

/-- A value is read back with the next allowance: the first character says which rule spelled it. -/
theorem succ_value (h : ReadsSpellings n) {s : Points} {t : Tree} (rest : Points) (hs : Spells s t)
    (ht : t.Within room) (hr : EndsValue rest) (hn : 2 * s.length ≤ n + 1) :
    readValue (n + 1) room (s ++ rest) = .ok (t.value, rest) := by
  cases hs with
  | scalar hs =>
    obtain ⟨c, cs, rfl, hc⟩ := hs.exists_cons
    have hread := readScalarOf_of_spells hs hr
    rw [List.map_cons, List.cons_append] at hread ⊢
    rw [readValue.eq_def]
    simp only [if_neg hc.starts.2.1, if_neg hc.starts.2.2.1, if_neg hc.starts.2.2.2, hread]
    rfl
  | text hs =>
    obtain ⟨cs, rfl⟩ := hs.exists_cons
    rw [List.cons_append, readValue.eq_def]
    simp only [if_true, readString_of_spells hs]
    rfl
  | noItems hb =>
    cases room with
    | zero => cases ht
    | succ room =>
      rw [List.cons_append, List.append_assoc, List.singleton_append, readValue]
      have hclose : isBlank ']' = false := rfl
      simp only [CodePoint.char.injEq, Char.reduceEq, if_false, if_true, skipBlanks_append hb,
        skipBlanks_cons hclose]
      rfl
  | list hs =>
    cases room with
    | zero => cases ht
    | succ room =>
      rw [List.cons_append, readValue]
      rw [List.length_cons] at hn
      have hread := h.items rest hs ht (by omega)
      obtain ⟨c, cs, hcs, hc⟩ := hs.skipBlanks rest
      simp only [CodePoint.char.injEq, Char.reduceEq, if_false, if_true]
      rw [hcs] at hread ⊢
      split
      · rename_i heq
        cases heq
        exact absurd rfl hc
      · rw [hread, Tree.value_list]
  | noMembers hb =>
    cases room with
    | zero => cases ht
    | succ room =>
      rw [List.cons_append, List.append_assoc, List.singleton_append, readValue]
      have hclose : isBlank '\x7d' = false := rfl
      simp only [CodePoint.char.injEq, Char.reduceEq, if_false, if_true, skipBlanks_append hb,
        skipBlanks_cons hclose]
      rfl
  | object hs =>
    cases room with
    | zero => cases ht
    | succ room =>
      rw [List.cons_append, readValue]
      rw [List.length_cons] at hn
      have hread := h.members rest hs ht (by omega)
      obtain ⟨cs, hcs⟩ := hs.skipBlanks rest
      simp only [CodePoint.char.injEq, Char.reduceEq, if_false, if_true]
      rw [hcs] at hread ⊢
      split
      · rename_i heq
        cases heq
      · rw [hread, Tree.value, Tree.memberValues_eq]

/-- So are the items of a list, the first by this allowance and the others by the one before. -/
theorem succ_items (h : ReadsSpellings n) {s : Points} {ts : List Tree} (rest : Points)
    (hs : SpellsItems s ts) (hts : ∀ t ∈ ts, t.Within room) (hn : 2 * s.length + 1 ≤ n + 1) :
    readItems (n + 1) room (skipBlanks (s ++ rest)) = .ok (ts.map Tree.value, rest) := by
  cases hs with
  | last hv =>
    rw [List.length_append, List.length_cons] at hn
    obtain ⟨b, hb, hread⟩ := h.padded hv (hts _ List.mem_cons_self) _
      (endsValue_cons (.inr (.inr (.inl rfl))) rest) (by omega)
    rw [List.append_assoc, List.singleton_append, readItems, hread]
    simp only [skipBlanks_append hb, skipBlanks_cons (show isBlank ']' = false from rfl), if_true]
    rfl
  | @more _ s' _ _ hv hs =>
    obtain ⟨ht, hts⟩ := List.forall_mem_cons.mp hts
    simp only [List.length_append, List.length_cons] at hn
    obtain ⟨b, hb, hread⟩ := h.padded hv ht _ (endsValue_cons (.inr (.inl rfl)) (s' ++ rest)) (by omega)
    rw [List.append_assoc, List.cons_append, readItems, hread]
    simp only [skipBlanks_append hb, skipBlanks_cons (show isBlank ',' = false from rfl), CodePoint.char.injEq,
      Char.reduceEq, if_false, if_true, h.items rest hs hts (by omega)]
    rfl

/-- The name of a member and the colon behind it are read, then its value. -/
theorem succ_members (h : ReadsSpellings n) {s : Points} {ms : List (Points × Tree)} (rest : Points)
    (hs : SpellsMembers s ms) (hms : ∀ m ∈ ms, m.2.Within room) (hn : 2 * s.length + 1 ≤ n + 1) :
    readMembers (n + 1) room (skipBlanks (s ++ rest)) = .ok (Tree.listed ms, rest) := by
  cases hs with
  | last hm =>
    obtain ⟨hb, hk, hb', hv⟩ := hm
    simp only [List.length_append, List.length_cons] at hn
    obtain ⟨b, hblank, hread⟩ := h.padded hv (hms _ List.mem_cons_self) _
      (endsValue_cons (.inr (.inr (.inr rfl))) rest) (by omega)
    simp only [List.append_assoc, List.cons_append, List.nil_append]
    rw [readMembers_front hb hk hb', hread]
    simp only [bind, Except.bind, readBehind, skipBlanks_append hblank,
      skipBlanks_cons (show isBlank '\x7d' = false from rfl), if_true]
    rfl
  | @more _ s' _ _ hm hs =>
    obtain ⟨hb, hk, hb', hv⟩ := hm
    obtain ⟨ht, hms⟩ := List.forall_mem_cons.mp hms
    simp only [List.length_append, List.length_cons] at hn
    obtain ⟨b, hblank, hread⟩ := h.padded hv ht _ (endsValue_cons (.inr (.inl rfl)) (s' ++ rest)) (by omega)
    simp only [List.append_assoc, List.cons_append]
    rw [readMembers_front hb hk hb', hread]
    simp only [bind, Except.bind, readBehind, skipBlanks_append hblank,
      skipBlanks_cons (show isBlank ',' = false from rfl), CodePoint.char.injEq, Char.reduceEq, if_false, if_true,
      h.members rest hs hms (by omega)]
    rfl

end ReadsSpellings

/-- A spelling is not empty, so without an allowance there is none to be read. -/
theorem readsSpellings : ∀ n, ReadsSpellings n
  | 0 => by
    refine ⟨fun rest hs _ _ hn => ?_, fun _ _ _ hn => by omega, fun _ _ _ hn => by omega⟩
    obtain ⟨c, cs, rfl, -⟩ := hs.exists_cons
    rw [List.length_cons] at hn
    omega
  | n + 1 =>
    have h := readsSpellings n
    ⟨h.succ_value, h.succ_items, h.succ_members⟩

/-! ## What is read is a spelling -/

/-- What is read with an allowance of this size spells something for which there is room. -/
structure SpellsReadings (n : Nat) : Prop where
  value : ∀ {room s v rest}, readValue n room s = .ok (v, rest) →
    ∃ u t, s = u ++ rest ∧ Spells u t ∧ t.Within room ∧ t.value = v
  items : ∀ {room s vs rest}, readItems n room (skipBlanks s) = .ok (vs, rest) →
    ∃ u ts, s = u ++ rest ∧ SpellsItems u ts ∧ (∀ t ∈ ts, t.Within room) ∧ ts.map Tree.value = vs
  members : ∀ {room s ms rest}, readMembers n room (skipBlanks s) = .ok (ms, rest) →
    ∃ u ts, s = u ++ rest ∧ SpellsMembers u ts ∧ (∀ m ∈ ts, m.2.Within room) ∧ Tree.listed ts = ms

namespace SpellsReadings

variable {n room : Nat}

/-- What is read behind blanks, and the blanks behind it. -/
theorem padded (h : SpellsReadings n) {s rest : Points} {v : Value}
    (hread : readValue n room (skipBlanks s) = .ok (v, rest)) :
    ∃ u t, s = u ++ skipBlanks rest ∧ Padded u t ∧ t.Within room ∧ t.value = v := by
  obtain ⟨u, t, hu, ht, hroom, hv⟩ := h.value hread
  obtain ⟨b, hb, hs⟩ := exists_skipped s
  obtain ⟨b', hb', hrest⟩ := exists_skipped rest
  refine ⟨b ++ (u ++ b'), t, ?_, .mk hb ht hb', hroom, hv⟩
  calc s = b ++ (u ++ rest) := by rw [← hu, ← hs]
    _ = b ++ (u ++ (b' ++ skipBlanks rest)) := by rw [← hrest]
    _ = b ++ (u ++ b') ++ skipBlanks rest := by simp only [List.append_assoc]

/-- A value that is read was spelled, whichever way the reader went. -/
theorem succ_value (h : SpellsReadings n) {s rest : Points} {v : Value}
    (hread : readValue (n + 1) room s = .ok (v, rest)) :
    ∃ u t, s = u ++ rest ∧ Spells u t ∧ t.Within room ∧ t.value = v := by
  have hstep := valueStep n room s
  rw [hread] at hstep
  cases hstep with
  | leaf hu hroom => exact ⟨_, _, rfl, hu, hroom, rfl⟩
  | items hitems =>
    obtain ⟨u, ts, rfl, hts, hroom, rfl⟩ := h.items hitems
    exact ⟨.char '[' :: u, .list ts, rfl, .list hts, hroom, Tree.value_list ts⟩
  | members hmembers =>
    obtain ⟨u, ts, rfl, hts, hroom, rfl⟩ := h.members hmembers
    exact ⟨.char '\x7b' :: u, .object ts, rfl, .object hts, hroom, by rw [Tree.value, Tree.memberValues_eq]⟩

/-- So were the items of a list. -/
theorem succ_items (h : SpellsReadings n) {s rest : Points} {vs : List Value}
    (hread : readItems (n + 1) room (skipBlanks s) = .ok (vs, rest)) :
    ∃ u ts, s = u ++ rest ∧ SpellsItems u ts ∧ (∀ t ∈ ts, t.Within room) ∧ ts.map Tree.value = vs := by
  rw [readItems] at hread
  split at hread
  · cases hread
  rename_i v after hvalue
  obtain ⟨u, t, rfl, ht, hroom, rfl⟩ := h.padded hvalue
  split at hread
  · cases hread
  rename_i c after' hskip
  rw [hskip]
  by_cases hend : c = ']'
  · rw [if_pos hend] at hread
    cases hread
    exact ⟨u ++ [.char ']'], [t], by rw [hend]; simp, .last ht, by simpa using hroom, rfl⟩
  rw [if_neg hend] at hread
  by_cases hcomma : c = ','
  · rw [if_pos hcomma] at hread
    split at hread
    · cases hread
    · rename_i items after'' hitems
      cases hread
      obtain ⟨u', ts, rfl, hts, hrooms, rfl⟩ := h.items hitems
      exact ⟨u ++ .char ',' :: u', t :: ts, by rw [hcomma]; simp, .more ht hts,
        List.forall_mem_cons.mpr ⟨hroom, hrooms⟩, rfl⟩
  · rw [if_neg hcomma] at hread
    cases hread

/-- So were the members of an object, with their names. -/
theorem succ_members (h : SpellsReadings n) {s rest : Points} {ms : Members}
    (hread : readMembers (n + 1) room (skipBlanks s) = .ok (ms, rest)) :
    ∃ u ts, s = u ++ rest ∧ SpellsMembers u ts ∧ (∀ m ∈ ts, m.2.Within room) ∧ Tree.listed ts = ms := by
  obtain ⟨f, hf, -⟩ | ⟨b, k, b', name, behind, hb, hk, hb', rfl⟩ := exists_front n room s
  · rw [hf] at hread
    cases hread
  rw [readMembers_front hb hk hb'] at hread
  obtain ⟨⟨v, after⟩, hvalue, hread⟩ := bind_eq_ok.mp hread
  obtain ⟨u, t, rfl, ht, hroom, rfl⟩ := h.padded hvalue
  have hmember : SpellsMember (b ++ (k ++ (b' ++ .char ':' :: u))) (name, t) := .mk hb hk hb' ht
  unfold readBehind at hread
  split at hread
  · cases hread
  rename_i c after' hskip
  rw [hskip]
  by_cases hend : c = '\x7d'
  · rw [if_pos hend] at hread
    cases hread
    exact ⟨_, [(name, t)], by rw [hend]; simp, .last hmember, by simpa using hroom, rfl⟩
  rw [if_neg hend] at hread
  by_cases hcomma : c = ','
  · rw [if_pos hcomma] at hread
    split at hread
    · cases hread
    · rename_i members after'' hmembers
      cases hread
      obtain ⟨more, ts, rfl, hts, hrooms, rfl⟩ := h.members hmembers
      exact ⟨_, (name, t) :: ts, by rw [hcomma]; simp, .more hmember hts,
        List.forall_mem_cons.mpr ⟨hroom, hrooms⟩, rfl⟩
  · rw [if_neg hcomma] at hread
    cases hread

end SpellsReadings

/-- Whatever the allowance, what is read was spelled. -/
theorem spellsReadings : ∀ n, SpellsReadings n
  | 0 => ⟨fun h => (by cases h), fun h => (by cases h), fun h => (by cases h)⟩
  | n + 1 =>
    have h := spellsReadings n
    ⟨h.succ_value, h.succ_items, h.succ_members⟩

/-! ## A whole text -/

theorem Padded.exists_cons {s : Points} {t : Tree} (h : Padded s t) :
    ∃ c cs, s = c :: cs ∧ c ≠ '\uFEFF' := by
  obtain @⟨b, _, _, _, hb, hs, -⟩ := h
  cases b with
  | nil =>
    obtain ⟨c, cs, rfl, hc⟩ := hs.exists_cons
    exact ⟨c, _, rfl, hc.2.2⟩
  | cons d b =>
    have hmark : d ≠ '\uFEFF' := by
      rintro rfl
      exact absurd (hb _ List.mem_cons_self) (by decide)
    exact ⟨d, _, rfl, hmark⟩

/-- **Reading.**  A text is read as a value exactly if it spells, with blanks around it, a tree of this value that
nests no deeper than is allowed. -/
theorem read_eq_ok_iff [Nesting] {s : Points} {v : Value} :
    read s = .ok v ↔ ∃ t, Padded s t ∧ t.Within Nesting.deepest ∧ t.value = v := by
  constructor
  · intro h
    unfold read at h
    split at h
    · cases h
    split at h
    · cases h
    rename_i v' rest hread
    obtain ⟨u, t, hs, ht, hroom, rfl⟩ := (spellsReadings _).padded hread
    split at h
    · rename_i hrest
      cases h
      rw [hrest, List.append_nil] at hs
      exact ⟨t, hs ▸ ht, hroom, rfl⟩
    · cases h
  · rintro ⟨t, ht, hroom, rfl⟩
    obtain ⟨c, cs, hcs, hmark⟩ := ht.exists_cons
    have hhead : s.head? ≠ some (.char '\uFEFF') := by
      rw [hcs, List.head?_cons, ne_eq, Option.some.injEq]
      exact hmark
    obtain ⟨b, hb, hread⟩ := (readsSpellings (2 * s.length + 2)).padded ht hroom [] endsValue_nil (by omega)
    rw [List.append_nil, List.append_nil] at hread
    have hskip : skipBlanks b = [] := by
      have := skipBlanks_append hb []
      rwa [List.append_nil] at this
    rw [read, if_neg hhead, hread]
    simp only [hskip]

end SchemaCatalog.Json
