import RelationalAccess.Number.Numeral

/-!
The shortest decimal that reads back as a given double. A double stands for all
reals nearer to it than to its neighbours; among the decimals in that interval
those with the fewest digits are taken, and of these the nearest to the double.
All arithmetic is exact.
-/

namespace RelationalAccess.Shortest

/-- A positive decimal `digits · 10 ^ exponent`. -/
structure Decimal where
  digits : Nat
  exponent : Int
  deriving DecidableEq

/-- The reals that read as one double, over a common denominator. The ends
belong to the interval if `closed`. -/
structure Interval where
  low : Nat
  centre : Nat
  high : Nat
  denominator : Nat
  closed : Bool

/-- The interval around `significand · 2 ^ exponent`. Below a power of two the
neighbours stand twice as close, so the lower half of the interval is halved. -/
def interval (significand : Nat) (exponent : Int) : Interval :=
  let below := if significand = Nat.pow 2 52 ∧ exponent ≠ -1074 then 1 else 2
  let scale := Nat.pow 2 (exponent - 2).toNat
  { low := (4 * significand - below) * scale
    centre := 4 * significand * scale
    high := (4 * significand + 2) * scale
    denominator := Nat.pow 2 (2 - exponent).toNat
    closed := significand % 2 = 0 }

/-- Whether `numerator / denominator` lies in the interval, both over the same
denominator. -/
def Interval.contains (interval : Interval) (numerator : Nat) : Bool :=
  if interval.closed then
    decide (interval.low ≤ numerator) && decide (numerator ≤ interval.high)
  else decide (interval.low < numerator) && decide (numerator < interval.high)

/-- The interval with its numerators brought to the grid of multiples of
`10 ^ power`: a grid point is a multiple of the returned unit. -/
def Interval.onGrid (interval : Interval) (power : Int) : Interval × Nat :=
  let factor := Nat.pow 10 (-power).toNat
  ({ interval with
      low := interval.low * factor
      centre := interval.centre * factor
      high := interval.high * factor },
    interval.denominator * Nat.pow 10 power.toNat)

/-- The nearest multiple of `10 ^ power` to the centre, among the two around it
that lie in the interval. A centre halfway between both goes up. -/
def onGrid? (interval : Interval) (power : Int) : Option Decimal :=
  let (scaled, unit) := interval.onGrid power
  let floor := scaled.centre / unit
  let lower := scaled.contains (floor * unit)
  let upper := scaled.contains ((floor + 1) * unit)
  let nearUpper := decide (unit ≤ 2 * (scaled.centre % unit))
  if upper && (nearUpper || !lower) then some ⟨floor + 1, power⟩
  else if lower then some ⟨floor, power⟩
  else none

/-- The least number of places by which a fraction below one has to be moved to
reach one. -/
def leadingPlaces (numerator denominator : Nat) : Nat → Nat
  | 0 => 0
  | fuel + 1 =>
    if denominator ≤ numerator then 0
    else leadingPlaces (10 * numerator) denominator fuel + 1

/-- The power of ten of the first digit. No double is below `10 ^ (-324)`. -/
def leadingPower (interval : Interval) : Int :=
  if interval.denominator ≤ interval.centre then
    Int.ofNat (Numeral.decimal (interval.centre / interval.denominator)).length - 1
  else -Int.ofNat (leadingPlaces interval.centre interval.denominator 400)

/-- The shortest decimal for `significand · 2 ^ exponent`, for a significand
above zero. Seventeen digits always reach the interval. -/
def shortest (significand : Nat) (exponent : Int) : Decimal :=
  let interval := interval significand exponent
  let first := leadingPower interval
  ((List.range 17).findSome? fun further => onGrid? interval (first - Int.ofNat further)).getD
    ⟨interval.centre / interval.denominator, 0⟩

end RelationalAccess.Shortest
