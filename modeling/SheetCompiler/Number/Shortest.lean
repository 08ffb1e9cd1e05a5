import SheetCompiler.Number.Binary64

/-!
# Shortest decimals

Of all decimals that round to a given floating-point number, `Decimal.shortest` finds the one with
the fewest digits, and of those the nearest to the number; of two equally near the even one.

A number of the format is read back from every decimal between the two midpoints to its neighbours,
and from the midpoints themselves when its significand is even.  For one, two, and up to seventeen
digits the decimals next to the number on either side are tried, so the first grid with a hit has
the fewest digits.  Lengths are measured in quarters of the number's unit, since the neighbour below
a power of two is only half a unit away.
-/

namespace SheetCompiler

/-- The decimal `digits * 10 ^ exponent`. -/
structure Decimal where
  digits : Nat
  exponent : Int
  deriving DecidableEq

namespace Decimal

/-- Move zeros at the end of the digits into the exponent. -/
def trimZeros : (count : Nat) → Decimal → Decimal
  | 0, decimal => decimal
  | count + 1, decimal =>
    if decimal.digits ≠ 0 ∧ decimal.digits % 10 = 0 then
      trimZeros count ⟨decimal.digits / 10, decimal.exponent + 1⟩
    else decimal

/-- The least power of ten, from a given one on, that lifts a quotient to one or above. -/
def liftToOne (numerator denominator : Nat) : (count power : Nat) → Nat
  | 0, power => power
  | count + 1, power =>
    if denominator ≤ numerator * Nat.pow 10 power then power
    else liftToOne numerator denominator count (power + 1)

/-- The exponent of the first digit of a quotient. -/
def leading (numerator denominator : Nat) : Int :=
  if denominator ≤ numerator then ((Nat.toDigits 10 (numerator / denominator)).length : Int) - 1
  else -(liftToOne numerator denominator 400 1 : Int)

/-- A power of two or ten as a quotient. -/
def power (base : Nat) : Int → Nat × Nat
  | .ofNat n => (Nat.pow base n, 1)
  | .negSucc n => (1, Nat.pow base (n + 1))

/-- What reads back as a number: the number and the midpoints around it in quarters of its unit, and
whether the midpoints count. -/
structure Interval where
  low : Nat
  middle : Nat
  high : Nat
  closed : Bool

/-- The decimals that read back as a number. -/
def interval (x : Binary64) : Interval :=
  let middle := 4 * x.significand
  let atPower := 2 * x.significand = Binary64.bound ∧ Binary64.minExponent < x.exponent
  ⟨if atPower then middle - 1 else middle - 2, middle, middle + 2, x.significand % 2 = 0⟩

/-- Whether a number of grid steps lies in the interval, where a quarter is `quarter / step` steps. -/
def hits (range : Interval) (quarter step count : Nat) : Bool :=
  if range.closed then range.low * quarter ≤ count * step && count * step ≤ range.high * quarter
  else range.low * quarter < count * step && count * step < range.high * quarter

/-- The nearer of the two grid points around the number that lie in the interval. -/
def choose? (range : Interval) (quarter step : Nat) : Option Nat :=
  let below := range.middle * quarter / step
  let above := below + 1
  match hits range quarter step below, hits range quarter step above with
  | true, true =>
    let excess := 2 * (range.middle * quarter)
    let half := (below + above) * step
    some (if excess < half then below else if half < excess then above
      else if below % 2 = 0 then below else above)
  | true, false => some below
  | false, true => some above
  | false, false => none

/-- The first grid with a hit, from a given number of digits on. -/
def search (x : Binary64) (first : Int) : (count digits : Nat) → Decimal
  | 0, _ => ⟨x.significand, x.exponent⟩
  | count + 1, digits =>
    let exponent := first - digits + 1
    let unit := power 2 (x.exponent - 2)
    let grid := power 10 exponent
    match choose? (interval x) (unit.1 * grid.2) (grid.1 * unit.2) with
    | some found => trimZeros 20 ⟨found, exponent⟩
    | none => search x first count (digits + 1)

/-- The shortest decimal that reads back as the absolute value of a number. -/
def shortest (x : Binary64) : Decimal :=
  if x.significand = 0 then ⟨0, 0⟩
  else
    let value := x.ratio
    search x (leading value.1 value.2) 17 1

end Decimal

end SheetCompiler
