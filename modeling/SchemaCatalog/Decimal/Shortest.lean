/-
  The shortest decimal of a double.

  Among all decimals that round to a given double, the one with the fewest digits is written, and of
  several with that many digits the nearest.  The decimals that round to the double form an interval
  whose ends belong to it exactly when the significand is even; the search goes from coarse to fine
  through the grids of multiples of `10 ^ k` and stops at the first grid with a point inside.  If a grid
  has such a point, one of the double's two neighbours on the grid is one, so only those are tried.
-/
import SchemaCatalog.Decimal.Binary

namespace SchemaCatalog.Decimal

/-- The number `digits · 10 ^ exponent`. -/
structure Scientific where
  digits : Nat
  exponent : Int

/-- The interval of the reals that round to a size, in quarters of its last place, and whether its ends
belong to it. -/
structure Interval where
  low : Nat
  middle : Nat
  high : Nat
  closed : Bool

/-- The interval of a positive size.  Below a power of two the doubles lie twice as dense. -/
def Size.interval (s : Size) : Interval :=
  let middle := 4 * s.significand
  let low := if s.significand = pow2 52 && s.exponent != -1074 then middle - 1 else middle - 2
  ⟨low, middle, middle + 2, s.significand % 2 == 0⟩

/-- A grid: `c` of its steps make `c · step / unit` quarters of a last place. -/
structure Grid where
  step : Nat
  unit : Nat

/-- The grid of the multiples of `10 ^ k`, measured in quarters of `2 ^ e`. -/
def gridAt (k e : Int) : Grid :=
  let quarter := e - 2
  ⟨pow10 k.toNat * pow2 (-quarter).toNat, pow10 (-k).toNat * pow2 quarter.toNat⟩

/-- Whether a grid point rounds to the size whose interval is given. -/
def Grid.hits (g : Grid) (i : Interval) (c : Nat) : Bool :=
  if i.closed then i.low * g.unit ≤ c * g.step && c * g.step ≤ i.high * g.unit
  else i.low * g.unit < c * g.step && c * g.step < i.high * g.unit

/-- The better of the two grid neighbours of a size: one inside the interval, else none; of two the
nearer, a tie going to the even one. -/
def Grid.best? (g : Grid) (i : Interval) : Option Nat :=
  let c := i.middle * g.unit / g.step
  match g.hits i c, g.hits i (c + 1) with
  | true, false => some c
  | false, true => some (c + 1)
  | true, true =>
    let below := i.middle * g.unit - c * g.step
    let above := (c + 1) * g.step - i.middle * g.unit
    some (if below < above || (below == above && c % 2 == 0) then c else c + 1)
  | false, false => none

/-- Tries the grids from `10 ^ k` downwards. -/
def search (s : Size) : Nat → Int → Scientific
  | 0, k => ⟨0, k⟩
  | tries + 1, k =>
    match (gridAt k s.exponent).best? s.interval with
    | some c => ⟨c, k⟩
    | none => search s tries (k - 1)

/-- The shortest decimal of a positive size.  Its leading digit stands at most two places below the
first grid tried, and seventeen digits always suffice. -/
def Size.shortest (s : Size) : Scientific :=
  search s 21 (((s.significand.log2 : Int) + s.exponent + 1) * 30103 / 100000 + 1)

end SchemaCatalog.Decimal
