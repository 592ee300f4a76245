/-
  How a double is written.

  A double is written with its shortest digits.  The decimal point stands where it belongs as long as
  the number is at least `0.0001` and below `10 ^ 16`, and a whole number keeps one zero after the
  point; outside that range one digit stands before the point and an exponent of at least two digits
  follows with its sign.  Only the words for the three special values differ between the two forms that
  the catalog writes: messages and documents.
-/
import SchemaCatalog.Decimal.Shortest

namespace SchemaCatalog.Decimal

/-- The words for the doubles that are no numbers. -/
structure Words where
  notANumber : String
  infinity : String

/-- The words used in messages. -/
def Words.plain : Words := ⟨"nan", "inf"⟩

/-- The words used in documents. -/
def Words.document : Words := ⟨"NaN", "Infinity"⟩

/-- Digits without the zeros at their end; the exponent makes up for them. -/
def trimZeros : List Char → Int → List Char × Int
  | [], e => ([], e)
  | c :: rest, e =>
    match trimZeros rest e with
    | ([], e) => if c = '0' then ([], e + 1) else ([c], e)
    | (r, e) => (c :: r, e)

/-- An exponent of at least two digits with its sign. -/
def exponentText (e : Int) : List Char :=
  let digits := Nat.toDigits 10 e.natAbs
  (if e < 0 then '-' else '+') :: (if digits.length < 2 then '0' :: digits else digits)

/-- Lays out digits (the last one not zero) whose decimal point stands after the first `point`. -/
def layOut (digits : List Char) (point : Int) : List Char :=
  if -4 < point && point ≤ 16 then
    if point ≤ 0 then '0' :: '.' :: List.replicate (-point).toNat '0' ++ digits
    else
      let whole := digits.take point.toNat
      let rest := digits.drop point.toNat
      whole ++ List.replicate (point.toNat - whole.length) '0' ++
        '.' :: (if rest.isEmpty then ['0'] else rest)
  else
    match digits with
    | [] => []
    | d :: rest =>
      d :: (if rest.isEmpty then [] else '.' :: rest) ++ 'e' :: exponentText (point - 1)

/-- A size in decimal. -/
def Size.text (s : Size) : List Char :=
  if s.significand = 0 then ['0', '.', '0']
  else
    let d := s.shortest
    let (digits, exponent) := trimZeros (Nat.toDigits 10 d.digits) d.exponent
    layOut digits (digits.length + exponent)

/-- A double in decimal. -/
def text (w : Words) (x : Float) : List Char :=
  match form x with
  | .notANumber => w.notANumber.toList
  | .infinite negative => (if negative then ['-'] else []) ++ w.infinity.toList
  | .finite negative s => (if negative then ['-'] else []) ++ s.text

/-- An integer in decimal. -/
def intText (i : Int) : List Char :=
  (if i < 0 then ['-'] else []) ++ Nat.toDigits 10 i.natAbs

end SchemaCatalog.Decimal
