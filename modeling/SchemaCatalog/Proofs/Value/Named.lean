/-
  Tables whose keys are texts, and the values that a document can hold unchanged.

  `Members` allows any scalar as a key, and then sameness is more than equality: `1` and `true` are one
  key.  Texts are the same only if they are equal, so on tables with text keys looking up and writing are
  what one expects, and reading a list of members with different names gives the list back.  Two sorts of
  texts are used for names, strings by those who make tables and texts of any kind in documents; what is
  said here of keys holds for both, as long as different names are different values.

  `Plain` lists what survives being written and read again.  Doubles do not belong to it, and neither do
  bytes, torn texts, keys that are no texts, or integers with too many digits.
-/
import SchemaCatalog.Value.Members
import SchemaCatalog.Json.Number

namespace SchemaCatalog

open Text (CodePoint Points)

/-! ## Texts as values -/

/-- Strings are the same texts only if they are equal. -/
@[simp] theorem Text.points_inj {s t : String} : (s : Points) = (t : Points) ↔ s = t :=
  ⟨fun h => String.toList_injective ((List.map_inj_right fun _ _ h => CodePoint.char.inj h).mp h),
    fun h => h ▸ rfl⟩

namespace Value

theorem ofPoints_map_char (s : List Char) : ofPoints (s.map .char) = .text (String.ofList s) := by
  rw [ofPoints, dif_neg (by rw [Text.any_isHalf_map_char]; exact Bool.false_ne_true), Text.shown_map_char]

/-- A whole text is a string. -/
@[simp] theorem ofPoints_string (s : String) : ofPoints (s : Points) = .text s := by
  rw [ofPoints_map_char, String.ofList_toList]

/-- The text that a value was made of. -/
@[simp] theorem points?_ofPoints (ps : Points) : (ofPoints ps).points? = some ps := by
  unfold ofPoints
  split
  · rfl
  · rename_i h
    exact congrArg some (Text.eq_map_char_of_whole (by simpa using h)).symm

theorem ofPoints_injective : Function.Injective ofPoints := fun p q h => by
  have hpoints := congrArg points? h
  rwa [points?_ofPoints, points?_ofPoints, Option.some.injEq] at hpoints

/-- Strings are told apart by their code points. -/
theorem points_injective : Function.Injective fun s : String => (s : Points) :=
  fun _ _ h => Text.points_inj.mp h

/-- Texts are the same value exactly when they are equal. -/
theorem same_ofPoints (p q : Points) : (ofPoints p).same (ofPoints q) = decide (p = q) := by
  have hiff : (ofPoints p).same (ofPoints q) = true ↔ ofPoints p = ofPoints q := by
    unfold ofPoints
    split <;> split <;> simp [same, sameScalar, int?, bytes?]
  rw [Bool.eq_iff_iff, hiff, decide_eq_true_iff, ofPoints_injective.eq_iff]

end Value

namespace Members

/-- The table with texts as keys. -/
def named (ms : List (String × Value)) : Members := ms.map fun m => (.text m.1, m.2)

@[simp] theorem named_nil : named [] = [] := rfl

@[simp] theorem named_cons (k : String) (v : Value) (ms : List (String × Value)) :
    named ((k, v) :: ms) = (.text k, v) :: named ms := rfl

/-- The table with keys of some sort. -/
def keyed {κ : Type} (key : κ → Value) (ms : List (κ × Value)) : Members := ms.map fun m => (key m.1, m.2)

theorem keys_named (ms : List (String × Value)) : ∀ m ∈ named ms, ∃ k, m.1 = .text k := by
  intro m hm
  obtain ⟨n, -, rfl⟩ := List.mem_map.mp hm
  exact ⟨n.1, rfl⟩

/-! ## Looking up and writing -/

/-- Looking up a text walks past the members with other keys. -/
theorem get?_cons_text (k k' : String) (v : Value) (m : Members) :
    get? (.text k) ((.text k', v) :: m) = if k = k' then some v else get? (.text k) m := by
  rw [get?, Value.same_text]
  by_cases h : k = k' <;> simp [h]

/-- No other value is the same as a text. -/
theorem eq_text_of_same {k : String} {w : Value} (h : (Value.text k).same w = true) : w = .text k := by
  cases w with
  | text s =>
    rw [Value.same_text, beq_iff_eq] at h
    rw [h]
  | _ => simp [Value.same, Value.sameScalar, Value.int?, Value.bytes?] at h

/-- What is found is the value of a member. -/
theorem mem_of_get? {k v : Value} : ∀ {ms : Members}, ms.get? k = some v → ∃ k', (k', v) ∈ ms
  | (k', v') :: ms, h => by
    rw [get?] at h
    split at h
    · cases h
      exact ⟨k', List.mem_cons_self⟩
    · obtain ⟨k'', hmem⟩ := mem_of_get? h
      exact ⟨k'', List.mem_cons_of_mem _ hmem⟩

/-- What is written under a text is not seen under another one. -/
theorem get?_put_of_ne {k k' : String} (h : k' ≠ k) (v : Value) (m : Members) :
    (m.put (.text k) v).get? (.text k') = m.get? (.text k') := by
  induction m with
  | nil => rw [put, get?_cons_text, if_neg h]
  | cons e m ih =>
    obtain ⟨w, v'⟩ := e
    rw [put]
    split
    · rename_i hsame
      rw [eq_text_of_same hsame, get?_cons_text, get?_cons_text, if_neg h, if_neg h]
    · rw [get?, get?, ih]

/-- A member written under a key is new or takes the place of an old one. -/
theorem mem_put {k v : Value} {p : Value × Value} :
    ∀ {ms : Members}, p ∈ ms.put k v → p ∈ ms ∨ p.2 = v ∧ (p.1 = k ∨ ∃ q ∈ ms, p.1 = q.1)
  | [], h => by
    rw [List.mem_singleton.mp h]
    exact .inr ⟨rfl, .inl rfl⟩
  | (k', v') :: ms, h => by
    unfold put at h
    split at h
    · rcases List.mem_cons.mp h with rfl | h
      · exact .inr ⟨rfl, .inr ⟨(k', v'), List.mem_cons_self, rfl⟩⟩
      · exact .inl (List.mem_cons_of_mem _ h)
    · rcases List.mem_cons.mp h with rfl | h
      · exact .inl List.mem_cons_self
      · rcases mem_put h with hold | ⟨hv, hk | ⟨q, hq, hk⟩⟩
        · exact .inl (List.mem_cons_of_mem _ hold)
        · exact .inr ⟨hv, .inl hk⟩
        · exact .inr ⟨hv, .inr ⟨q, List.mem_cons_of_mem _ hq, hk⟩⟩

/-! ## Members with different names -/

/-- A new name goes to the end. -/
theorem put_new {κ : Type} [DecidableEq κ] {key : κ → Value} (hkey : ∀ a b, (key a).same (key b) = decide (a = b))
    {k : κ} {ms : List (κ × Value)} (h : k ∉ ms.map Prod.fst) (v : Value) :
    (keyed key ms).put (key k) v = keyed key (ms ++ [(k, v)]) := by
  induction ms with
  | nil => rfl
  | cons m ms ih =>
    obtain ⟨n, w⟩ := m
    rw [List.map_cons, List.mem_cons, not_or] at h
    show put (key k) v ((key n, w) :: keyed key ms) = (key n, w) :: keyed key (ms ++ [(k, v)])
    rw [put, hkey, if_neg (by simp [h.1]), ih h.2]

end Members

/-! ## Plain values -/

namespace Value

/-- The values that a document holds unchanged: null, booleans, integers that are not too long, texts, and
lists and objects of these, the objects with texts as keys, each once. -/
inductive Plain : Value → Prop where
  | null : Plain .null
  | bool (b : Bool) : Plain (.bool b)
  | int (i : Int) (short : (Nat.toDigits 10 i.natAbs).length ≤ Json.maxDigits) : Plain (.int i)
  | text (s : String) : Plain (.text s)
  | list (items : List Value) (plain : ∀ v ∈ items, Plain v) : Plain (.list items)
  | object (members : List (String × Value)) (distinct : (members.map Prod.fst).Nodup)
      (plain : ∀ m ∈ members, Plain m.2) : Plain (.object (Members.named members))

/-! ## Depth -/

/-- At most so many lists and objects lie inside one another. -/
def Within : Nat → Value → Prop
  | n + 1, .list items => ∀ v ∈ items, Within n v
  | n + 1, .object members => ∀ m ∈ members, Within n m.2
  | 0, .list _ | 0, .object _ => False
  | _, _ => True

theorem within_list {n : Nat} {items : List Value} :
    (Value.list items).Within n ↔ ∃ k, n = k + 1 ∧ ∀ v ∈ items, v.Within k := by
  cases n with
  | zero => exact ⟨fun h => h.elim, fun ⟨_, h, _⟩ => (by cases h)⟩
  | succ n => exact ⟨fun h => ⟨n, rfl, h⟩, fun ⟨_, h, hv⟩ => by cases h; exact hv⟩

theorem within_named {n : Nat} {members : List (String × Value)} :
    (Value.object (Members.named members)).Within n ↔ ∃ k, n = k + 1 ∧ ∀ m ∈ members, m.2.Within k := by
  cases n with
  | zero => exact ⟨fun h => h.elim, fun ⟨_, h, _⟩ => (by cases h)⟩
  | succ n =>
    have hmembers : (Value.object (Members.named members)).Within (n + 1) ↔ ∀ m ∈ members, m.2.Within n :=
      List.forall_mem_map
    exact hmembers.trans ⟨fun h => ⟨n, rfl, h⟩, fun ⟨_, h, hm⟩ => by cases h; exact hm⟩

/-- A value that is neither a list nor an object has no depth. -/
theorem within_scalar {v : Value} {n : Nat} (h : v.isKey = true) : v.Within n := by
  cases v <;> first | (cases h; done) | (cases n <;> trivial)

/-- So many lists inside one another, and null in the last. -/
def nested : Nat → Value
  | 0 => .null
  | n + 1 => .list [nested n]

theorem plain_nested : ∀ n, (nested n).Plain
  | 0 => .null
  | n + 1 => .list _ (List.forall_mem_singleton.mpr (plain_nested n))

theorem not_within_nested {m n : Nat} (h : m < n) : ¬(nested n).Within m := by
  induction m generalizing n with
  | zero =>
    obtain ⟨k, rfl⟩ := Nat.exists_eq_add_of_lt h
    exact fun hroom => hroom.elim
  | succ m ih =>
    obtain ⟨k, rfl⟩ := Nat.exists_eq_succ_of_ne_zero (Nat.ne_zero_of_lt h)
    exact fun hroom => ih (Nat.lt_of_succ_lt_succ h) (hroom _ List.mem_cons_self)

end Value

end SchemaCatalog
