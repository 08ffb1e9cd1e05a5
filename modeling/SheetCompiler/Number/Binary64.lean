/-!
# Binary floating-point numbers

Finite numbers of the 64-bit binary format, as a sign, a significand below `2 ^ 53` and the exponent
of its unit.  All arithmetic is exact on natural numbers: a quotient is rounded once, to the nearest
number of the format and to the even one of two equally near, and one that is too large for the
format has no result.
-/

namespace SheetCompiler

/-- The number `significand * 2 ^ exponent`, or its negative. -/
structure Binary64 where
  negative : Bool := false
  significand : Nat
  exponent : Int
  deriving DecidableEq

namespace Binary64

/-- Significands stay below this bound. -/
def bound : Nat := Nat.pow 2 53

/-- The smallest exponent. -/
def minExponent : Int := -1074

/-- The largest exponent. -/
def maxExponent : Int := 971

/-- Zero, with the sign plus. -/
def zero : Binary64 := ⟨false, 0, minExponent⟩

/-- Both parts of a quotient, the numerator times `2 ^ -exponent`. -/
def scale (numerator denominator : Nat) (exponent : Int) : Nat × Nat :=
  match exponent with
  | .ofNat n => (numerator, denominator * Nat.pow 2 n)
  | .negSucc n => (numerator * Nat.pow 2 (n + 1), denominator)

/-- The nearest natural number to a quotient, and the even one of two. -/
def nearest (numerator denominator : Nat) : Nat :=
  let quotient := numerator / denominator
  let remainder := numerator % denominator
  if 2 * remainder < denominator then quotient
  else if denominator < 2 * remainder then quotient + 1
  else quotient + quotient % 2

/-- The number with a rounded significand: a significand that has reached the bound moves to the next
exponent. -/
def assemble (significand : Nat) (exponent : Int) : Option Binary64 :=
  let carried := if significand = bound then (bound / 2, exponent + 1) else (significand, exponent)
  if maxExponent < carried.2 then none else some ⟨false, carried.1, carried.2⟩

/-- The number of the format nearest to a quotient of natural numbers. -/
def ofRatio (numerator denominator : Nat) : Option Binary64 :=
  if numerator = 0 then some zero
  else
    let guess := max minExponent ((numerator.log2 : Int) - denominator.log2 - 53)
    let (n, d) := scale numerator denominator guess
    if n / d < bound then assemble (nearest n d) guess
    else assemble (nearest n (2 * d)) (guess + 1)

/-- The number of the format nearest to a natural number. -/
def ofNat (n : Nat) : Option Binary64 := ofRatio n 1

/-- The numerator and the denominator of the absolute value. -/
def ratio (x : Binary64) : Nat × Nat :=
  match x.exponent with
  | .ofNat n => (x.significand * Nat.pow 2 n, 1)
  | .negSucc n => (x.significand, Nat.pow 2 (n + 1))

/-- The product of the absolute values, rounded. -/
def mul (x y : Binary64) : Option Binary64 :=
  ofRatio (x.ratio.1 * y.ratio.1) (x.ratio.2 * y.ratio.2)

/-- The quotient of the absolute values, rounded.  Nothing is divided by zero. -/
def div (x y : Binary64) : Option Binary64 :=
  if y.significand = 0 then none else ofRatio (x.ratio.1 * y.ratio.2) (x.ratio.2 * y.ratio.1)

/-- The number with the given sign. -/
def withSign (negative : Bool) (x : Binary64) : Binary64 := { x with negative := negative }

end Binary64

end SheetCompiler
