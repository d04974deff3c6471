import LatencyProbe.Double.Basic

/-!
# The shortest decimal of a double

Many decimals round to the same double; among them this module takes one with the fewest digits,
and the nearest of those, a tie to the even digit. The reals that round to a magnitude lie between
the midpoints to its two neighbours, and a midpoint itself belongs to the even magnitude.

All comparisons are made in exact integers. On the grid of multiples of `10 ^ g` the value's two
neighbours are tried: if any point of the grid rounds to the double, one of those two does.
-/

namespace LatencyProbe.Double

/-- A decimal number `coefficient · 10 ^ exponent`. -/
structure Decimal where
  coefficient : Nat
  exponent : Int
  deriving DecidableEq, Repr

namespace Decimal

/-- The digits of the coefficient without the zeros at its end. -/
def digits (d : Decimal) : List Char :=
  ((Nat.toDigits 10 d.coefficient).reverse.dropWhile (· == '0')).reverse

/-- The exponent of the first digit, as in scientific notation. -/
def leading (d : Decimal) : Int :=
  d.exponent + (Nat.toDigits 10 d.coefficient).length - 1

end Decimal

/-- One step of the grid `10 ^ g` is `step.1 / step.2` units. -/
def gridStep (g : Int) : Nat × Nat :=
  if g < 0 then (perOne, Nat.pow 10 (-g).toNat) else (perOne * Nat.pow 10 g.toNat, 1)

/-- Whether `c` steps of the grid `10 ^ g` round to the magnitude `m`: twice the value is compared
with the sums of the neighbouring magnitudes, which are twice the midpoints. -/
def roundsTo (m : Nat) (g : Int) (c : Nat) : Bool :=
  let step := gridStep g
  let twice := 2 * c * step.1
  let low := (units (m - 1) + units m) * step.2
  let high := (units m + units (m + 1)) * step.2
  if m % 2 = 0 then low ≤ twice && twice ≤ high else low < twice && twice < high

/-- The point of the grid `10 ^ g` nearest to the magnitude that rounds to it, if one does. -/
def onGrid? (m : Nat) (g : Int) : Option Decimal :=
  let step := gridStep g
  let below := units m * step.2 / step.1
  match roundsTo m g below, roundsTo m g (below + 1) with
  | true, true => some ⟨roundHalfEven (units m * step.2) step.1, g⟩
  | true, false => some ⟨below, g⟩
  | false, true => some ⟨below + 1, g⟩
  | false, false => none

/-- The exponent of the first digit of a magnitude that is not zero. Scaled up by `10 ^ 324` every
such magnitude is at least one, and a whole number has as many digits as its exponent says. -/
def leadingExponent (m : Nat) : Int :=
  (Nat.toDigits 10 (units m * Nat.pow 10 324 / perOne)).length - 325

/-- The shortest decimal that rounds to a magnitude that is not zero. Seventeen digits are enough
for every double. -/
def shortest (m : Nat) : Decimal :=
  ((List.range 17).findSome? fun (n : Nat) => onGrid? m (leadingExponent m - n)).getD ⟨0, 0⟩

end LatencyProbe.Double
