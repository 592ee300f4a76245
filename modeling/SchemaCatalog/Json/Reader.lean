/-
  Reading JSON text.

  The reader takes the standard notation and, beside its numbers, `NaN`, `Infinity` and `-Infinity`.  A
  value may be surrounded by blanks (space, tab, line feed, carriage return).  Of members with the same
  name the first gives the place and the last the value.  A 16-bit unit written by number that is half of
  a character is joined with the other half beside it; alone it stays a half, and the text is torn.

  Every part of the reader takes the text still unread and gives back what it found together with the
  rest.  Two numbers bound its recursion.  The room is real: it is how many more lists and objects may be
  opened inside one another, and where it is used up the reader stops, whatever follows.  How much there is
  in all, `Nesting.deepest`, is not the catalog's to say.  The allowance only makes the recursion
  structural: each step lowers it by one, and as no more than two steps are taken between two code points
  read, twice the length of the text is always enough.
-/
import SchemaCatalog.Json.Number
import SchemaCatalog.Json.Nesting
import SchemaCatalog.Value.Members

namespace SchemaCatalog.Json

open Text (CodePoint Points)

/-- The code points allowed between the parts of a text. -/
def isBlank : CodePoint → Bool
  | .char c => c == ' ' || c == '\t' || c == '\n' || c == '\r'
  | .half _ => false

/-- The text behind its leading blanks. -/
def skipBlanks (s : Points) : Points := s.dropWhile isBlank

/-! ## Strings -/

/-- A piece of a string: a code point as it is, or a 16-bit unit written by number. -/
inductive Piece where
  | point (p : CodePoint)
  | unit (n : Nat)

/-- The value of a hexadecimal digit. -/
def hexValue? : CodePoint → Option Nat
  | .char c =>
    if '0' ≤ c && c ≤ '9' then some (c.toNat - 48)
    else if 'a' ≤ c && c ≤ 'f' then some (c.toNat - 87)
    else if 'A' ≤ c && c ≤ 'F' then some (c.toNat - 55)
    else none
  | .half _ => none

/-- The unit written by four hexadecimal digits. -/
def unit? (a b c d : CodePoint) : Option Nat :=
  match hexValue? a, hexValue? b, hexValue? c, hexValue? d with
  | some a, some b, some c, some d => some (((a * 16 + b) * 16 + c) * 16 + d)
  | _, _, _, _ => none

/-- The character that a backslash and one more character stand for. -/
def shortEscape? (c : CodePoint) : Option Char :=
  if c = '"' then some '"'
  else if c = '\\' then some '\\'
  else if c = '/' then some '/'
  else if c = 'b' then some '\x08'
  else if c = 'f' then some '\x0c'
  else if c = 'n' then some '\n'
  else if c = 'r' then some '\r'
  else if c = 't' then some '\t'
  else none

/-- The characters that stand in no string as they are. -/
def isControl : CodePoint → Bool
  | .char c => decide (c.toNat < 0x20)
  | .half _ => false

/-- Whether the unit is the first half of a character beyond 16 bits. -/
def isHigh (n : Nat) : Bool := decide (0xD800 ≤ n) && decide (n < 0xDC00)

/-- Whether the unit is the second half of a character beyond 16 bits. -/
def isLow (n : Nat) : Bool := decide (0xDC00 ≤ n) && decide (n < 0xE000)

/-- The character made of two halves. -/
def joinHalves (high low : Nat) : Char :=
  Char.ofNat (0x10000 + (high - 0xD800) * 0x400 + (low - 0xDC00))

/-- The code point of a unit that has no other half beside it. -/
def loneUnit (n : Nat) : CodePoint :=
  if isHigh n || isLow n then .half (Fin.ofNat 2048 (n - 0xD800)) else .char (Char.ofNat n)

/-- The text made of pieces: neighbouring halves written by number join to one character. -/
def assemble : List Piece → Points
  | [] => []
  | .point p :: rest => p :: assemble rest
  | [.unit n] => [loneUnit n]
  | .unit n :: .point p :: rest => loneUnit n :: p :: assemble rest
  | .unit n :: .unit m :: rest =>
    if isHigh n && isLow m then .char (joinHalves n m) :: assemble rest
    else loneUnit n :: assemble (.unit m :: rest)

/-- The pieces of a string up to its closing quote, and the text behind; `opening` is the text from the
opening quote on. -/
def readPieces (opening : Points) : Points → Except Fault (List Piece × Points)
  | [] => .error ⟨.unterminated, opening⟩
  | c :: rest =>
    if c = '"' then .ok ([], rest)
    else if c = '\\' then
      match rest with
      | [] => .error ⟨.unterminated, opening⟩
      | e :: rest' =>
        if e = 'u' then
          match rest' with
          | h₁ :: h₂ :: h₃ :: h₄ :: next :: rest'' =>
            match unit? h₁ h₂ h₃ h₄ with
            | none => .error ⟨.unicodeEscape, rest⟩
            | some n =>
              match readPieces opening (next :: rest'') with
              | .error f => .error f
              | .ok (pieces, after) => .ok (.unit n :: pieces, after)
          | _ => .error ⟨.unicodeEscape, rest⟩
        else match shortEscape? e with
          | none => .error ⟨.escape, c :: rest⟩
          | some d =>
            match readPieces opening rest' with
            | .error f => .error f
            | .ok (pieces, after) => .ok (.point d :: pieces, after)
    else if isControl c then .error ⟨.control, c :: rest⟩
    else
      match readPieces opening rest with
      | .error f => .error f
      | .ok (pieces, after) => .ok (.point c :: pieces, after)

/-- A string whose opening quote has been read. -/
def readString (s : Points) : Except Fault (Points × Points) :=
  match readPieces ('"' :: s) s with
  | .error f => .error f
  | .ok (pieces, rest) => .ok (assemble pieces, rest)

/-! ## Values without parts -/

/-- The values that are written as words. -/
def words : List (List Char × Value) :=
  [(['n', 'u', 'l', 'l'], .null), (['t', 'r', 'u', 'e'], .bool true),
   (['f', 'a', 'l', 's', 'e'], .bool false), (['N', 'a', 'N'], .nan),
   (['I', 'n', 'f', 'i', 'n', 'i', 't', 'y'], .float (Decimal.infinity false)),
   (['-', 'I', 'n', 'f', 'i', 'n', 'i', 't', 'y'], .float (Decimal.infinity true))]

/-- A value written as a word, and the text behind. -/
def readWord (s : List Char) : Option (Value × List Char) :=
  words.findSome? fun w => (w.1.isPrefixOf? s).map fun rest => (w.2, rest)

/-- A word or a number. -/
def readScalar (s : List Char) : Except Problem (Value × List Char) :=
  match readWord s with
  | some r => .ok r
  | none =>
    match readNumeral s with
    | none => .error .value
    | some (n, rest) =>
      match n.value with
      | .ok v => .ok (v, rest)
      | .error digits => .error (.longInteger digits)

/-- The characters up to the first half, and the text from there. -/
def cutAtHalf : Points → List Char × Points
  | .char c :: s => (c :: (cutAtHalf s).1, (cutAtHalf s).2)
  | s => ([], s)

/-- A word or a number at the start of a text; no half is part of one. -/
def readScalarOf (s : Points) : Except Fault (Value × Points) :=
  match readScalar (cutAtHalf s).1 with
  | .error p => .error ⟨p, s⟩
  | .ok (v, rest) => .ok (v, rest.map .char ++ (cutAtHalf s).2)

/-! ## Values -/

mutual

/-- A value at the start of the text. -/
def readValue : Nat → Nat → Points → Except Fault (Value × Points)
  | 0, _, s => .error ⟨.value, s⟩
  | _ + 1, _, [] => .error ⟨.value, []⟩
  | allowance + 1, room, c :: rest =>
    if c = '"' then
      match readString rest with
      | .error f => .error f
      | .ok (s, rest) => .ok (.ofPoints s, rest)
    else if c = '[' then
      match room with
      | 0 => .error ⟨.deepList, c :: rest⟩
      | room + 1 =>
        match skipBlanks rest with
        | .char ']' :: rest => .ok (.list [], rest)
        | rest =>
          match readItems allowance room rest with
          | .error f => .error f
          | .ok (items, rest) => .ok (.list items, rest)
    else if c = '\x7b' then
      match room with
      | 0 => .error ⟨.deepObject, c :: rest⟩
      | room + 1 =>
        match skipBlanks rest with
        | .char '\x7d' :: rest => .ok (.object [], rest)
        | rest =>
          match readMembers allowance room rest with
          | .error f => .error f
          | .ok (members, rest) => .ok (.object (Members.ofList members), rest)
    else readScalarOf (c :: rest)

/-- The items of a list from the first on, up to the closing bracket. -/
def readItems : Nat → Nat → Points → Except Fault (List Value × Points)
  | 0, _, s => .error ⟨.value, s⟩
  | allowance + 1, room, s =>
    match readValue allowance room s with
    | .error f => .error f
    | .ok (v, rest) =>
      match skipBlanks rest with
      | [] => .error ⟨.comma, []⟩
      | c :: rest =>
        if c = ']' then .ok ([v], rest)
        else if c = ',' then
          match readItems allowance room (skipBlanks rest) with
          | .error f => .error f
          | .ok (items, rest) => .ok (v :: items, rest)
        else .error ⟨.comma, c :: rest⟩

/-- The members of an object from the first on, up to the closing brace. -/
def readMembers : Nat → Nat → Points → Except Fault (List (Value × Value) × Points)
  | 0, _, s => .error ⟨.value, s⟩
  | _ + 1, _, [] => .error ⟨.name, []⟩
  | allowance + 1, room, q :: s =>
    if q = '"' then
      match readString s with
      | .error f => .error f
      | .ok (k, rest) =>
        match skipBlanks rest with
        | [] => .error ⟨.colon, []⟩
        | c :: rest =>
          if c = ':' then
            match readValue allowance room (skipBlanks rest) with
            | .error f => .error f
            | .ok (v, rest) =>
              match skipBlanks rest with
              | [] => .error ⟨.comma, []⟩
              | d :: rest =>
                if d = '\x7d' then .ok ([(.ofPoints k, v)], rest)
                else if d = ',' then
                  match readMembers allowance room (skipBlanks rest) with
                  | .error f => .error f
                  | .ok (members, rest) => .ok ((.ofPoints k, v) :: members, rest)
                else .error ⟨.comma, d :: rest⟩
          else .error ⟨.colon, c :: rest⟩
    else .error ⟨.name, q :: s⟩

end

/-- The value of a whole text. -/
def read [Nesting] (s : Points) : Except Fault Value :=
  if s.head? = some (.char '\uFEFF') then .error ⟨.byteOrderMark, s⟩
  else
    match readValue (2 * s.length + 2) Nesting.deepest (skipBlanks s) with
    | .error f => .error f
    | .ok (v, rest) =>
      match skipBlanks rest with
      | [] => .ok v
      | rest => .error ⟨.extra, rest⟩

end SchemaCatalog.Json
