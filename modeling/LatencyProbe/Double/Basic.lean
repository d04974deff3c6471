/-!
# Double precision numbers, exactly

Every finite double is a whole multiple of `2 ^ -1074`, the *unit*. A magnitude is kept as one
natural number, exponent field and fraction together, and `units` says how many units it stands
for. Arithmetic is therefore arithmetic on natural numbers followed by one rounding, `nearest`,
and the carry from the fraction into the exponent needs no case of its own.

Magnitudes of `limit` and above are no finite doubles: an operation that reaches them overflows.
-/

namespace LatencyProbe

namespace Double

/-- How many magnitudes have the same exponent field: two to the power of 52. -/
def perBinade : Nat := 0x10000000000000

/-- The first magnitude that is not finite: exponent field 2047, fraction zero. -/
def limit : Nat := 2047 * perBinade

/-- How many units make one. -/
def perOne : Nat := 1 <<< 1074

/-- How many units a magnitude stands for. Below the second normal binade the spacing is one unit,
above it doubles with every step of the exponent field. -/
def units (m : Nat) : Nat :=
  if m < perBinade then m else (perBinade + m % perBinade) <<< (m / perBinade - 1)

@[simp] theorem units_zero : units 0 = 0 := rfl

/-- The quotient rounded to a whole number, a half to the even neighbour. -/
def roundHalfEven (num den : Nat) : Nat :=
  if 2 * (num % den) < den ∨ (2 * (num % den) = den ∧ num / den % 2 = 0) then num / den
  else num / den + 1

theorem roundHalfEven_le (num den : Nat) : roundHalfEven num den ≤ num / den + 1 := by
  unfold roundHalfEven
  split <;> omega

/-- The magnitude nearest to `num / den` units, a half to the even one. In the binade that starts
at `2 ^ (52 + k)` units the spacing is `2 ^ k`, and `k` steps of the exponent field lie below it. -/
def nearest (num den : Nat) : Nat :=
  let k := (num / den).log2 - 52
  k * perBinade + roundHalfEven num (den <<< k)

/-- A quotient below `2 ^ (53 + k)` units stays within the binades up to there. -/
theorem nearest_le {num den k : Nat} (h : num / den < 1 <<< (53 + k)) :
    nearest num den ≤ (k + 2) * perBinade := by
  rw [Nat.one_shiftLeft] at h
  have step : (num / den).log2 - 52 ≤ k := by
    by_cases zero : num / den = 0
    · simp [zero]
    · have := (Nat.log2_lt zero).mpr h
      omega
  have small : num / (den <<< ((num / den).log2 - 52)) < 2 ^ 53 := by
    rw [Nat.shiftLeft_eq, ← Nat.div_div_eq_div_mul,
      Nat.div_lt_iff_lt_mul (Nat.pow_pos (by decide)), ← Nat.pow_add]
    exact Nat.lt_of_lt_of_le Nat.lt_log2_self (Nat.pow_le_pow_right (by decide) (by omega))
  have rounded : roundHalfEven num (den <<< ((num / den).log2 - 52)) ≤ 2 ^ 53 :=
    Nat.le_trans (roundHalfEven_le _ _) small
  calc nearest num den
      ≤ k * perBinade + 2 ^ 53 := Nat.add_le_add (Nat.mul_le_mul_right _ step) rounded
    _ = (k + 2) * perBinade := by simp only [perBinade]; omega

theorem nearest_shiftLeft_le {n e : Nat} (h : n < 0x10000000000000000) :
    nearest (n * 1 <<< e) 1 ≤ (e + 13) * perBinade := by
  refine nearest_le (k := e + 11) ?_
  rw [Nat.div_one, Nat.one_shiftLeft, Nat.one_shiftLeft]
  calc n * 2 ^ e
      < 2 ^ 64 * 2 ^ e := Nat.mul_lt_mul_of_pos_right h (Nat.pow_pos (by decide))
    _ = 2 ^ (53 + (e + 11)) := by rw [← Nat.pow_add]; congr 1; omega

/-- A whole number of at most 64 bits is far below the overflow threshold. -/
theorem nearest_whole_lt_limit {n : Nat} (h : n < 0x10000000000000000) :
    nearest (n * perOne) 1 < limit :=
  Nat.lt_of_le_of_lt (nearest_shiftLeft_le h) (by decide)

/-- The magnitude nearest to a power of ten. -/
def powerOfTen (k : Nat) : Nat := nearest (Nat.pow 10 k * perOne) 1

/-- The magnitude of a product: the exact product, rounded once. -/
def product (a b : Nat) : Nat := nearest (units a * units b) perOne

/-- The magnitude of a quotient: the exact quotient, rounded once. -/
def quotient (a b : Nat) : Nat := nearest (units a * perOne) (units b)

/-- Divides by `10 ^ 308` so many times, and stops early at zero, which nothing changes. -/
def shrink : Nat → Nat → Nat
  | 0, m => m
  | blocks + 1, m => if m = 0 then 0 else shrink blocks (quotient m (powerOfTen 308))

/-- Multiplies a magnitude by a power of ten, in steps that round one by one: one product, or
divisions by `10 ^ 308` while the exponent is below `-308` and one more division for the rest.
`none` says that the result is not finite; zero stays zero whatever the exponent. -/
def scale (m : Nat) : Int → Option Nat
  | .ofNat e =>
    if e ≤ 308 then
      if product m (powerOfTen e) < limit then some (product m (powerOfTen e)) else none
    else if m = 0 then some 0 else none
  | .negSucc e => some (quotient (shrink (e / 308) m) (powerOfTen (e % 308 + 1)))

/-- A finite double. Zero has both signs. -/
structure Finite where
  negative : Bool
  magnitude : Nat
  magnitude_lt : magnitude < limit
  deriving DecidableEq, Repr

namespace Finite

/-- How many units the absolute value is. -/
def units (x : Finite) : Nat := Double.units x.magnitude

/-- The double of that sign and magnitude, if it is finite. -/
def ofMagnitude? (negative : Bool) (magnitude : Nat) : Option Finite :=
  if h : magnitude < limit then some ⟨negative, magnitude, h⟩ else none

/-- The double nearest to a whole number of at most 64 bits. -/
def ofNat (negative : Bool) (n : Nat) (h : n < 0x10000000000000000) : Finite :=
  ⟨negative, nearest (n * perOne) 1, nearest_whole_lt_limit h⟩

/-- How many units a double is, with its sign. -/
def signedUnits (x : Finite) : Int := if x.negative then -x.units else x.units

/-- Doubles compare as the numbers that they are: the two zeros are level. -/
instance : LE Finite := ⟨fun x y => x.signedUnits ≤ y.signedUnits⟩

instance : LT Finite := ⟨fun x y => x.signedUnits < y.signedUnits⟩

instance (x y : Finite) : Decidable (x ≤ y) :=
  inferInstanceAs (Decidable (x.signedUnits ≤ y.signedUnits))

instance (x y : Finite) : Decidable (x < y) :=
  inferInstanceAs (Decidable (x.signedUnits < y.signedUnits))

/-- Nothing stands after the point. -/
def IsWhole (x : Finite) : Prop := x.units % perOne = 0

instance (x : Finite) : Decidable x.IsWhole := inferInstanceAs (Decidable (_ = _))

/-- What stands in front of the point, with the sign. -/
def whole (x : Finite) : Int :=
  if x.negative then -(x.units / perOne : Nat) else (x.units / perOne : Nat)

/-- The whole part, cut to the signed 64-bit range. -/
def toInt64 (x : Finite) : Int64 :=
  Int64.ofInt (max (-0x8000000000000000) (min x.whole 0x7FFFFFFFFFFFFFFF))

end Finite
end Double

/-- A double precision number. Not-a-number is one value here: nothing tells its encodings apart. -/
inductive Double where
  | finite (x : Double.Finite)
  | infinite (negative : Bool)
  | nan
  deriving DecidableEq, Repr

namespace Double

/-- The number that 64 bits encode: sign, then exponent field and fraction as one magnitude. -/
def ofBits (bits : UInt64) : Double :=
  let negative := decide (0x8000000000000000 ≤ bits.toNat)
  let magnitude := bits.toNat % 0x8000000000000000
  if h : magnitude < limit then .finite ⟨negative, magnitude, h⟩
  else if magnitude = limit then .infinite negative
  else .nan

end Double
end LatencyProbe
