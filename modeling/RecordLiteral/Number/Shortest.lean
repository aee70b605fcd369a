import RecordLiteral.Number.Double
import RecordLiteral.Text.Numeral

/-! # Shortest digits

A double is written with the fewest decimal digits that still read back as it, and
of those the ones nearest to it. The search goes through the grids of multiples of a
power of ten from coarse to fine; the first grid with a point that reads back has the
fewest digits. A grid is met by one of the two neighbours of the number on it.
-/
namespace RecordLiteral.Shortest

/-- The reals that read back as a double, as fractions over one denominator; the ends
belong to them when the significand is even. -/
structure Interval where
  low : Nat
  value : Nat
  high : Nat
  denominator : Nat
  closed : Bool

/-- Half a step on either side; below a power of two the steps are half as wide. -/
def interval (exponent : Fin 2047) (fraction : BitVec 52) : Interval :=
  let m := Double.significand exponent fraction
  let up := (Double.scale exponent).toNat
  let narrow := fraction = 0 ∧ 1 < exponent.val
  { low := (4 * m - if narrow then 1 else 2) <<< up
    value := (4 * m) <<< up
    high := (4 * m + 2) <<< up
    denominator := 4 <<< (-Double.scale exponent).toNat
    closed := m % 2 == 0 }

def Interval.holds (i : Interval) (n unit : Nat) : Bool :=
  if i.closed then decide (i.low ≤ n * unit ∧ n * unit ≤ i.high)
  else decide (i.low < n * unit ∧ n * unit < i.high)

/-- The neighbour on the grid `10 ^ power` that reads back: the nearer one of two, the
even one at equal distance. -/
def Interval.onGrid? (i : Interval) (power : Int) : Option Nat :=
  let widened : Interval :=
    let factor := Nat.pow 10 (-power).toNat
    { i with low := i.low * factor, value := i.value * factor, high := i.high * factor }
  let unit := i.denominator * Nat.pow 10 power.toNat
  let below := widened.value / unit
  let toBelow := widened.value - below * unit
  let toAbove := (below + 1) * unit - widened.value
  match widened.holds below unit, widened.holds (below + 1) unit with
  | true, true =>
    some (if toBelow < toAbove ∨ (toBelow = toAbove ∧ below % 2 = 0) then below else below + 1)
  | true, false => some below
  | false, true => some (below + 1)
  | false, false => none

/-- The digits and the power of ten of the shortest form of a number other than zero. -/
def digits (exponent : Fin 2047) (fraction : BitVec 52) : Nat × Int :=
  let i := interval exponent fraction
  let top := (Numeral.natural (i.high / i.denominator)).length
  ((List.range (top + 345)).findSome? fun (step : Nat) =>
    let power : Int := top - step
    (i.onGrid? power).map (·, power)).getD (0, 0)

structure Layout where
  firstPlain : Int
  firstLarge : Int
  mark : Char
  exponentWidth : Nat

/-- Exponents from -4 to 15 are written out, with a point and at least one place;
others have a sign and at least two digits. -/
def layout : Layout := ⟨-4, 16, 'e', 2⟩

/-- The digits `0.d₁d₂… · 10 ^ point` as text. -/
def Layout.arrange (l : Layout) (ds : List Char) (point : Int) : List Char :=
  if l.firstPlain < point ∧ point ≤ l.firstLarge then
    if point ≤ 0 then '0' :: '.' :: (List.replicate point.natAbs '0' ++ ds)
    else
      let whole := (ds ++ List.replicate (point.toNat - ds.length) '0').take point.toNat
      let places := ds.drop point.toNat
      whole ++ '.' :: (if places.isEmpty then ['0'] else places)
  else
    ds.take 1 ++ (if ds.length = 1 then [] else '.' :: ds.drop 1)
      ++ l.mark :: (if point - 1 < 0 then '-' else '+')
      :: Numeral.padded l.exponentWidth (point - 1).natAbs

def finiteText (negative : Bool) (exponent : Fin 2047) (fraction : BitVec 52) : List Char :=
  (if negative then ['-'] else []) ++
    if exponent.val = 0 ∧ fraction = 0 then ['0', '.', '0']
    else
      let (n, power) := digits exponent fraction
      let ds := Numeral.natural n
      layout.arrange ds (ds.length + power)

end RecordLiteral.Shortest

namespace RecordLiteral.Double

/-- The shortest text of a double; what is not finite is named in words. -/
def text : Double → List Char
  | .undefined _ => "nan".toList
  | .infinite negative => (if negative then "-inf" else "inf").toList
  | .finite negative exponent fraction => Shortest.finiteText negative exponent fraction

end RecordLiteral.Double
