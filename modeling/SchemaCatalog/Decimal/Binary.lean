/-
  Doubles as integers times powers of two, and decimals rounded to doubles.

  A finite double is `significand · 2 ^ exponent` up to its sign, and every question about it (is it the
  integer `n`, which decimals round to it) becomes exact arithmetic on natural numbers.  In the other
  direction a fraction is rounded to the nearest double, a tie to the even significand.

  The rounding writes the bits in one formula.  With `e` the exponent of the last place and `n` the
  rounded significand, `(e + 1074) · 2 ^ 52 + n` is the bit pattern: the leading bit of a normal
  significand carries into the exponent field, a subnormal one leaves that field at zero, and a
  significand rounded up to `2 ^ 53` carries once more.
-/

namespace SchemaCatalog.Decimal

/-- A power of two. -/
def pow2 (n : Nat) : Nat := Nat.pow 2 n

/-- A power of ten. -/
def pow10 (n : Nat) : Nat := Nat.pow 10 n

/-! ## Taking a double apart -/

/-- The size of a finite double: `significand · 2 ^ exponent`. -/
structure Size where
  significand : Nat
  exponent : Int

/-- What a double is. -/
inductive Form where
  | notANumber
  | infinite (negative : Bool)
  | finite (negative : Bool) (size : Size)

/-- The parts of a double, read off its bits. -/
def form (x : Float) : Form :=
  let bits := x.toBits.toNat
  let negative := decide (pow2 63 ≤ bits)
  let field : Nat := bits / pow2 52 % pow2 11
  let fraction := bits % pow2 52
  if field = 2047 then if fraction = 0 then .infinite negative else .notANumber
  else if field = 0 then .finite negative ⟨fraction, -1074⟩
  else .finite negative ⟨pow2 52 + fraction, (field : Int) - 1075⟩

/-- Whether the size is the natural number `n`. -/
def Size.isNat (s : Size) (n : Nat) : Bool :=
  if 0 ≤ s.exponent then s.significand * pow2 s.exponent.toNat == n
  else s.significand == n * pow2 (-s.exponent).toNat

/-- Whether a double is the integer `i`. -/
def isInt (x : Float) (i : Int) : Bool :=
  match form x with
  | .finite negative s => s.isNat i.natAbs && (i == 0 || negative == decide (i < 0))
  | _ => false

/-! ## Rounding a fraction -/

/-- The quotient rounded to the nearest natural number, a tie to the even one. -/
def roundDiv (num den : Nat) : Nat :=
  let q := num / den
  let r := num % den
  if 2 * r < den then q
  else if den < 2 * r then q + 1
  else if q % 2 = 0 then q else q + 1

/-- The exponent of the last place that a double near `num / den` has. -/
def lastPlace (num den : Nat) : Int :=
  let d : Int := (num.log2 : Int) - den.log2
  let whole := if 0 ≤ d then den * pow2 d.toNat ≤ num else den ≤ num * pow2 (-d).toNat
  max (-1074) (if whole then d - 52 else d - 53)

/-- The bits of the double nearest to the positive fraction `num / den`. -/
def nearestBits (num den : Nat) : Nat :=
  let e := lastPlace num den
  let n := if 0 ≤ e then roundDiv num (den * pow2 e.toNat) else roundDiv (num * pow2 (-e).toNat) den
  min ((e + 1074).toNat * pow2 52 + n) (2047 * pow2 52)

/-- The double nearest to `± digits · 10 ^ exponent`.  Decimals far outside the range of doubles are
decided by their length, so that no huge power is computed. -/
def toFloat (negative : Bool) (digits : Nat) (exponent : Int) : Float :=
  let length : Int := (Nat.toDigits 10 digits).length
  let bits :=
    if digits = 0 || length + exponent < -330 then 0
    else if 310 < length + exponent then 2047 * pow2 52
    else if 0 ≤ exponent then nearestBits (digits * pow10 exponent.toNat) 1
    else nearestBits digits (pow10 (-exponent).toNat)
  Float.ofBits (UInt64.ofNat (bits + if negative then pow2 63 else 0))

/-! ## The doubles that are no numbers -/

/-- The result that is no number. -/
def notANumber : Float := Float.ofBits 0x7FF8000000000000

/-- Infinity, with its sign. -/
def infinity (negative : Bool) : Float :=
  Float.ofBits (if negative then 0xFFF0000000000000 else 0x7FF0000000000000)

end SchemaCatalog.Decimal
