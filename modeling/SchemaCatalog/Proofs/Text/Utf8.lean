/-
  The bytes that are read as a text are those written for it.

  1. **Written bytes are read back.**  The lead byte of a character fixes the range of the byte behind it,
     and only in four of its cases is that range narrower than usual: the overlong forms, the surrogates and
     the values that are too large are cut off there.  `lead?_three` and `lead?_four` say that a character's
     own second byte always is in range, which is where it counts that a character is no surrogate; the rest
     is adding up six bits at a time.

  2. **Nothing else is read.**  The same four ranges turn the argument around: what a lead byte lets through
     is no surrogate, not too large and not written too long (`lead?_cases`), so the value that was added up
     is a character whose own bytes are those that were read.
-/
import SchemaCatalog.Text.Utf8

namespace SchemaCatalog.Text.Utf8

/-! ## Lead bytes -/

theorem lead?_two {b : Nat} (h : 0xC2 ≤ b ∧ b < 0xE0) : lead? b = some ⟨b - 0xC0, 0x80, 0xBF, 0⟩ := by
  rw [lead?, if_neg (by omega), if_pos h.2]

/-- The lead byte of three announces a range that holds the second byte `s`, unless the character is
written too long or is a surrogate. -/
theorem lead?_three {b s : Nat} (hb : 0xE0 ≤ b ∧ b < 0xF0) (hs : 0x80 ≤ s ∧ s ≤ 0xBF)
    (hlong : b = 0xE0 → 0xA0 ≤ s) (hsurrogate : b = 0xED → s ≤ 0x9F) :
    ∃ first last, lead? b = some ⟨b - 0xE0, first, last, 1⟩ ∧ first ≤ s ∧ s ≤ last := by
  rw [lead?, if_neg (by omega), if_neg (by omega)]
  by_cases h0 : b = 0xE0
  · exact ⟨0xA0, 0xBF, by rw [if_pos h0, h0], hlong h0, hs.2⟩
  · rw [if_neg h0]
    by_cases hd : b = 0xED
    · exact ⟨0x80, 0x9F, by rw [if_pos hd, hd], hs.1, hsurrogate hd⟩
    · exact ⟨0x80, 0xBF, by rw [if_neg hd, if_pos hb.2], hs⟩

/-- The lead byte of four announces a range that holds the second byte `s`, unless the character is written
too long or is too large. -/
theorem lead?_four {b s : Nat} (hb : 0xF0 ≤ b ∧ b < 0xF5) (hs : 0x80 ≤ s ∧ s ≤ 0xBF)
    (hlong : b = 0xF0 → 0x90 ≤ s) (hlarge : b = 0xF4 → s ≤ 0x8F) :
    ∃ first last, lead? b = some ⟨b - 0xF0, first, last, 2⟩ ∧ first ≤ s ∧ s ≤ last := by
  rw [lead?, if_neg (by omega), if_neg (by omega), if_neg (by omega), if_neg (by omega), if_neg (by omega)]
  by_cases h0 : b = 0xF0
  · exact ⟨0x90, 0xBF, by rw [if_pos h0, h0], hlong h0, hs.2⟩
  · rw [if_neg h0]
    by_cases h4 : b < 0xF4
    · exact ⟨0x80, 0xBF, by rw [if_pos h4], hs⟩
    · have hb4 : b = 0xF4 := by omega
      exact ⟨0x80, 0x8F, by rw [if_neg h4, if_pos hb4, hb4], hs.1, hlarge hb4⟩

/-! ## One byte -/

theorem toNat_ofNat_of_lt {b : Nat} (h : b < 256) : (UInt8.ofNat b).toNat = b := by
  rw [UInt8.toNat_ofNat']; exact Nat.mod_eq_of_lt h

theorem decodeFrom_ascii (position : Nat) {b : Nat} (h : b < 0x80) (rest : List UInt8) :
    decodeFrom position .between (UInt8.ofNat b :: rest) =
      (decodeFrom (position + 1) .between rest).map (Char.ofNat b :: ·) := by
  rw [decodeFrom, toNat_ofNat_of_lt (by omega), if_pos h]

theorem decodeFrom_lead (position : Nat) {b : Nat} (h : 0x80 ≤ b ∧ b < 256) {bits first last more : Nat}
    (hl : lead? b = some ⟨bits, first, last, more⟩) (rest : List UInt8) :
    decodeFrom position .between (UInt8.ofNat b :: rest) =
      decodeFrom (position + 1) (.within bits first last more [UInt8.ofNat b]) rest := by
  rw [decodeFrom, toNat_ofNat_of_lt h.2, if_neg (by omega), hl]

/-- The last byte of a character ends it. -/
theorem decodeFrom_last (position bits : Nat) {first last b : Nat} (seen : List UInt8)
    (hb : b < 256) (h : first ≤ b ∧ b ≤ last) (rest : List UInt8) :
    decodeFrom position (.within bits first last 0 seen) (UInt8.ofNat b :: rest) =
      (decodeFrom (position + 1) .between rest).map (Char.ofNat (bits * 64 + b % 64) :: ·) := by
  rw [decodeFrom, toNat_ofNat_of_lt hb, if_pos (by simpa using h)]

/-- A byte inside a character adds six bits. -/
theorem decodeFrom_inner (position bits more : Nat) {first last b : Nat} (seen : List UInt8)
    (hb : b < 256) (h : first ≤ b ∧ b ≤ last) (rest : List UInt8) :
    decodeFrom position (.within bits first last (more + 1) seen) (UInt8.ofNat b :: rest) =
      decodeFrom (position + 1) (.within (bits * 64 + b % 64) 0x80 0xBF more (UInt8.ofNat b :: seen))
        rest := by
  rw [decodeFrom, toNat_ofNat_of_lt hb, if_pos (by simpa using h)]

/-! ## One character -/

theorem decodeFrom_utf8EncodeChar (position : Nat) (c : Char) (rest : List UInt8) :
    decodeFrom position .between (String.utf8EncodeChar c ++ rest) =
      (decodeFrom (position + c.utf8Size) .between rest).map (c :: ·) := by
  have hvalid : c.toNat < 0xD800 ∨ 0xDFFF < c.toNat ∧ c.toNat < 0x110000 := c.valid
  have hself : ∀ n, n = c.toNat → Char.ofNat n = c := fun n hn => by rw [hn, Char.ofNat_toNat]
  have hsize : c.utf8Size = (String.utf8EncodeChar c).length := (String.length_utf8EncodeChar c).symm
  rw [hsize, String.utf8EncodeChar]
  simp only [show c.val.toNat = c.toNat from rfl]
  generalize c.toNat = v at *
  split
  · -- one byte
    rename_i h1
    simp only [List.cons_append, List.nil_append, List.length_cons, List.length_nil]
    rw [decodeFrom_ascii position (by omega), hself v rfl]
  split
  · -- two bytes
    rename_i h1 h2
    simp only [List.cons_append, List.nil_append, List.length_cons, List.length_nil]
    rw [decodeFrom_lead position (by omega) (lead?_two (by omega)),
      decodeFrom_last _ _ _ (by omega) (by omega), hself _ (by omega)]
  split
  · -- three bytes
    rename_i h1 h2 h3
    obtain ⟨first, last, hlead, hrange⟩ := lead?_three (b := v / 4096 % 16 + 0xE0) (s := v / 64 % 64 + 0x80)
      (by omega) (by omega) (by omega) (by omega)
    simp only [List.cons_append, List.nil_append, List.length_cons, List.length_nil]
    rw [decodeFrom_lead position (by omega) hlead, decodeFrom_inner _ _ _ _ (by omega) hrange,
      decodeFrom_last _ _ _ (by omega) (by omega), hself _ (by omega)]
  · -- four bytes
    rename_i h1 h2 h3
    obtain ⟨first, last, hlead, hrange⟩ := lead?_four (b := v / 262144 % 8 + 0xF0)
      (s := v / 4096 % 64 + 0x80) (by omega) (by omega) (by omega) (by omega)
    simp only [List.cons_append, List.nil_append, List.length_cons, List.length_nil]
    rw [decodeFrom_lead position (by omega) hlead, decodeFrom_inner _ _ _ _ (by omega) hrange,
      decodeFrom_inner _ _ _ _ (by omega) (by omega), decodeFrom_last _ _ _ (by omega) (by omega),
      hself _ (by omega)]

/-! ## A whole text -/

theorem decodeFrom_encode (position : Nat) (s : List Char) :
    decodeFrom position .between (encode s) = .ok s := by
  induction s generalizing position with
  | nil => rfl
  | cons c s ih =>
    rw [encode, List.flatMap_cons, decodeFrom_utf8EncodeChar, ← encode, ih]
    rfl

/-- The bytes of a text are read as the text. -/
theorem decode_encode (s : List Char) : decode (encode s) = .ok s := decodeFrom_encode 0 s

/-! ## Nothing else is read -/

/-- A lead byte starts a character of two, three or four bytes, and its range for the second byte leaves out
what would be too long, a surrogate or too large. -/
theorem lead?_cases {b : Nat} {l : Lead} (h : lead? b = some l) :
    0x80 ≤ l.first ∧ l.last ≤ 0xBF ∧
    (0xC2 ≤ b ∧ b < 0xE0 ∧ l.bits = b - 0xC0 ∧ l.more = 0 ∨
      0xE0 ≤ b ∧ b < 0xF0 ∧ l.bits = b - 0xE0 ∧ l.more = 1 ∧ (b = 0xE0 → 0xA0 ≤ l.first) ∧
        (b = 0xED → l.last ≤ 0x9F) ∨
      0xF0 ≤ b ∧ b < 0xF5 ∧ l.bits = b - 0xF0 ∧ l.more = 2 ∧ (b = 0xF0 → 0x90 ≤ l.first) ∧
        (b = 0xF4 → l.last ≤ 0x8F)) := by
  rw [lead?] at h
  by_cases h1 : b < 0xC2
  · rw [if_pos h1] at h; cases h
  by_cases h2 : b < 0xE0
  · rw [if_neg h1, if_pos h2] at h; obtain rfl := Option.some.inj h; dsimp only; omega
  by_cases h3 : b = 0xE0
  · rw [if_neg h1, if_neg h2, if_pos h3] at h; obtain rfl := Option.some.inj h; dsimp only; omega
  by_cases h4 : b = 0xED
  · rw [if_neg h1, if_neg h2, if_neg h3, if_pos h4] at h; obtain rfl := Option.some.inj h; dsimp only; omega
  by_cases h5 : b < 0xF0
  · rw [if_neg h1, if_neg h2, if_neg h3, if_neg h4, if_pos h5] at h
    obtain rfl := Option.some.inj h
    dsimp only
    omega
  rw [if_neg h1, if_neg h2, if_neg h3, if_neg h4, if_neg h5] at h
  by_cases h6 : b = 0xF0
  · rw [if_pos h6] at h; obtain rfl := Option.some.inj h; dsimp only; omega
  by_cases h7 : b < 0xF4
  · rw [if_neg h6, if_pos h7] at h; obtain rfl := Option.some.inj h; dsimp only; omega
  by_cases h8 : b = 0xF4
  · rw [if_neg h6, if_neg h7, if_pos h8] at h; obtain rfl := Option.some.inj h; dsimp only; omega
  · rw [if_neg h6, if_neg h7, if_neg h8] at h; cases h

/-- The last byte of a character is in its range, and the rest is read behind it. -/
theorem exists_last {position bits first last : Nat} {seen bs : List UInt8} {s : List Char}
    (h : decodeFrom position (.within bits first last 0 seen) bs = .ok s) :
    ∃ (b : UInt8) (rest : List UInt8) (s' : List Char), bs = b :: rest ∧ first ≤ b.toNat ∧ b.toNat ≤ last ∧
      s = Char.ofNat (bits * 64 + b.toNat % 64) :: s' ∧ decodeFrom (position + 1) .between rest = .ok s' := by
  cases bs with
  | nil => cases h
  | cons b rest =>
    rw [decodeFrom] at h
    split at h
    · rename_i hrange
      rw [Bool.and_eq_true, decide_eq_true_eq, decide_eq_true_eq] at hrange
      cases hrest : decodeFrom (position + 1) .between rest with
      | error e => rw [hrest] at h; cases h
      | ok s' =>
        rw [hrest] at h
        cases h
        exact ⟨b, rest, s', rfl, hrange.1, hrange.2, rfl, hrest⟩
    · cases h

/-- A byte inside a character is in its range, and the character goes on behind it. -/
theorem exists_inner {position bits first last more : Nat} {seen bs : List UInt8} {s : List Char}
    (h : decodeFrom position (.within bits first last (more + 1) seen) bs = .ok s) :
    ∃ (b : UInt8) (rest : List UInt8), bs = b :: rest ∧ first ≤ b.toNat ∧ b.toNat ≤ last ∧
      decodeFrom (position + 1) (.within (bits * 64 + b.toNat % 64) 0x80 0xBF more (b :: seen)) rest =
        .ok s := by
  cases bs with
  | nil => cases h
  | cons b rest =>
    rw [decodeFrom] at h
    split at h
    · rename_i hrange
      rw [Bool.and_eq_true, decide_eq_true_eq, decide_eq_true_eq] at hrange
      exact ⟨b, rest, rfl, hrange.1, hrange.2, h⟩
    · cases h

/-- The bytes of the character with a number. -/
theorem utf8EncodeChar_ofNat {v : Nat} (h : v < 0xD800 ∨ 0xDFFF < v ∧ v < 0x110000) :
    String.utf8EncodeChar (Char.ofNat v) =
      if v ≤ 0x7F then [UInt8.ofNat v]
      else if v ≤ 0x7FF then [UInt8.ofNat (v / 64 % 32 + 0xC0), UInt8.ofNat (v % 64 + 0x80)]
      else if v ≤ 0xFFFF then
        [UInt8.ofNat (v / 4096 % 16 + 0xE0), UInt8.ofNat (v / 64 % 64 + 0x80), UInt8.ofNat (v % 64 + 0x80)]
      else
        [UInt8.ofNat (v / 262144 % 8 + 0xF0), UInt8.ofNat (v / 4096 % 64 + 0x80),
          UInt8.ofNat (v / 64 % 64 + 0x80), UInt8.ofNat (v % 64 + 0x80)] := by
  have hv : (Char.ofNat v).val.toNat = v := by
    rw [Char.ofNat, dif_pos h]
    rfl
  rw [String.utf8EncodeChar, hv]

/-- A byte by its number. -/
theorem ofNat_of_toNat {b : UInt8} {n : Nat} (h : b.toNat = n) : UInt8.ofNat n = b := by
  rw [← h, UInt8.ofNat_toNat]

/-- The first character that is read, and its bytes. -/
theorem exists_character {position : Nat} {bs : List UInt8} {s : List Char} (hne : bs ≠ [])
    (h : decodeFrom position .between bs = .ok s) :
    ∃ (c : Char) (s' : List Char) (rest : List UInt8) (position' : Nat), s = c :: s' ∧
      bs = String.utf8EncodeChar c ++ rest ∧ decodeFrom position' .between rest = .ok s' := by
  obtain ⟨b, bs, rfl⟩ := List.exists_cons_of_ne_nil hne
  have hb : b.toNat < 256 := b.toNat_lt
  rw [decodeFrom] at h
  split at h
  · -- one byte
    rename_i hascii
    cases hrest : decodeFrom (position + 1) .between bs with
    | error e => rw [hrest] at h; cases h
    | ok s' =>
      rw [hrest] at h
      cases h
      refine ⟨_, s', bs, _, rfl, ?_, hrest⟩
      rw [utf8EncodeChar_ofNat (by omega), if_pos (by omega), ofNat_of_toNat rfl]
      rfl
  split at h
  · cases h
  rename_i l hlead
  obtain ⟨hfirst, hlast, ⟨hlow, hhigh, hbits, hmore⟩ | ⟨hlow, hhigh, hbits, hmore, hlong, hsurrogate⟩ |
    ⟨hlow, hhigh, hbits, hmore, hlong, hlarge⟩⟩ := lead?_cases hlead
  · -- two bytes
    rw [hmore] at h
    obtain ⟨b₂, rest, s', rfl, h₂, h₂', rfl, hrest⟩ := exists_last h
    refine ⟨_, s', rest, _, rfl, ?_, hrest⟩
    rw [utf8EncodeChar_ofNat (by omega), if_neg (by omega), if_pos (by omega),
      ofNat_of_toNat (b := b) (by omega), ofNat_of_toNat (b := b₂) (by omega)]
    rfl
  · -- three bytes
    rw [hmore] at h
    obtain ⟨b₂, rest₂, rfl, h₂, h₂', h⟩ := exists_inner h
    obtain ⟨b₃, rest, s', rfl, h₃, h₃', rfl, hrest⟩ := exists_last h
    refine ⟨_, s', rest, _, rfl, ?_, hrest⟩
    rw [utf8EncodeChar_ofNat (by omega), if_neg (by omega), if_neg (by omega), if_pos (by omega),
      ofNat_of_toNat (b := b) (by omega), ofNat_of_toNat (b := b₂) (by omega),
      ofNat_of_toNat (b := b₃) (by omega)]
    rfl
  · -- four bytes
    rw [hmore] at h
    obtain ⟨b₂, rest₂, rfl, h₂, h₂', h⟩ := exists_inner h
    obtain ⟨b₃, rest₃, rfl, h₃, h₃', h⟩ := exists_inner h
    obtain ⟨b₄, rest, s', rfl, h₄, h₄', rfl, hrest⟩ := exists_last h
    refine ⟨_, s', rest, _, rfl, ?_, hrest⟩
    rw [utf8EncodeChar_ofNat (by omega), if_neg (by omega), if_neg (by omega), if_neg (by omega),
      ofNat_of_toNat (b := b) (by omega), ofNat_of_toNat (b := b₂) (by omega),
      ofNat_of_toNat (b := b₃) (by omega), ofNat_of_toNat (b := b₄) (by omega)]
    rfl

theorem eq_encode_of_decodeFrom {position : Nat} {bs : List UInt8} {s : List Char}
    (h : decodeFrom position .between bs = .ok s) : bs = encode s := by
  induction s generalizing position bs with
  | nil =>
    cases bs with
    | nil => rfl
    | cons b bs =>
      obtain ⟨c, s', -, -, heq, -⟩ := exists_character (List.cons_ne_nil b bs) h
      cases heq
  | cons c s ih =>
    have hne : bs ≠ [] := by rintro rfl; cases h
    obtain ⟨c', s', rest, position', heq, rfl, hrest⟩ := exists_character hne h
    cases heq
    rw [ih hrest, encode, encode, List.flatMap_cons]

/-- **Reading bytes.**  Bytes are read as a text exactly if they are its bytes. -/
theorem decode_eq_ok_iff {bs : List UInt8} {s : List Char} : decode bs = .ok s ↔ bs = encode s :=
  ⟨eq_encode_of_decodeFrom, fun h => h ▸ decode_encode s⟩

/-- The bytes of a string are those of its characters. -/
theorem toUTF8_eq_iff {s : String} {bs : List UInt8} : s.toUTF8 = bs.toByteArray ↔ bs = encode s.toList := by
  have hbytes : s.toUTF8 = (encode s.toList).toByteArray := by
    have hlist := String.toByteArray_ofList (l := s.toList)
    rw [String.ofList_toList] at hlist
    exact hlist
  rw [hbytes, List.toByteArray_inj]
  exact eq_comm

end SchemaCatalog.Text.Utf8
