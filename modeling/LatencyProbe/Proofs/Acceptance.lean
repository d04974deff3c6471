import LatencyProbe.Echo
import LatencyProbe.Proofs.Double.Rounding
import Mathlib.Algebra.Order.Field.Rat
import Mathlib.Tactic.FieldSimp

/-!
# What a field accepts

A string is accepted for the id that it is, and a number for the time that it is exactly. A number
that is no signed integer is taken as a double on the way, which may round it. Nothing that was
rounded is accepted: it lies at the upper end of the signed range or beyond, and so does the double
of that end. For the same reason no double that is accepted is ever cut to the range.
-/

namespace LatencyProbe

/-- A double as the exact number that it is. -/
def Double.Finite.value (x : Double.Finite) : ℚ :=
  if x.negative then -(x.units / Double.perOne) else x.units / Double.perOne

namespace Json

/-- A number as the exact number that it is. -/
def Number.value : Number → ℚ
  | .integer n _ => n
  | .float x => x.value

/-- A value that is a string. -/
def IsString (v : Json) (s : String) : Prop := v = .string s

/-- A value that is a time, exactly. -/
def IsTime (v : Json) (t : Int64) : Prop := ∃ n : Number, v = .number n ∧ n.value = t.toInt

end Json

namespace Double.Finite

variable {x y : Double.Finite}

theorem value_eq_iff {m : Int} : x.value = m ↔
    x.units = m.natAbs * perOne ∧ if x.negative then m ≤ 0 else 0 ≤ m := by
  have hone : (perOne : ℚ) ≠ 0 := Nat.cast_ne_zero.mpr perOne_pos.ne'
  have hpos : (0 : Int) < perOne := Int.natCast_pos.mpr perOne_pos
  have hquotient (k : Int) :
      (x.units / perOne : ℚ) = k ↔ x.units = k.natAbs * perOne ∧ 0 ≤ k := by
    rw [div_eq_iff hone]
    constructor
    · intro h
      have hint : (x.units : Int) = k * perOne := by exact_mod_cast h
      have hk : 0 ≤ k := by
        apply (mul_nonneg_iff_of_pos_right hpos).mp
        rw [← hint]
        exact Int.natCast_nonneg _
      rw [← Int.natAbs_of_nonneg hk] at hint
      exact ⟨by exact_mod_cast hint, hk⟩
    · rintro ⟨h, hk⟩
      have hint : (x.units : Int) = k * perOne := by
        rw [h, Nat.cast_mul, Int.natAbs_of_nonneg hk]
      exact_mod_cast hint
  rw [value]
  split
  · rw [neg_eq_iff_eq_neg, ← Int.cast_neg, hquotient, Int.natAbs_neg, Int.neg_nonneg]
  · exact hquotient m

theorem value_eq_signedUnits_div : x.value = x.signedUnits / perOne := by
  rw [value, signedUnits]
  split
  · rw [Int.cast_neg, Int.cast_natCast, neg_div]
  · rw [Int.cast_natCast]

/-- Doubles are in the order of the numbers that they are. -/
theorem value_le_value : x.value ≤ y.value ↔ x ≤ y := by
  rw [value_eq_signedUnits_div, value_eq_signedUnits_div,
    div_le_div_iff_of_pos_right (Nat.cast_pos.mpr perOne_pos), Int.cast_le]
  rfl

theorem value_lt_value : x.value < y.value ↔ x < y := by
  rw [value_eq_signedUnits_div, value_eq_signedUnits_div,
    div_lt_div_iff_of_pos_right (Nat.cast_pos.mpr perOne_pos), Int.cast_lt]
  rfl

theorem value_of_isWhole (h : x.IsWhole) : x.value = x.whole := by
  have hunits : x.units = x.units / perOne * perOne :=
    (Nat.div_mul_cancel (Nat.dvd_of_mod_eq_zero h)).symm
  rw [value_eq_iff, whole]
  split
  · rw [Int.natAbs_neg, Int.natAbs_natCast]
    exact ⟨hunits, Int.neg_nonpos_of_nonneg (Int.natCast_nonneg _)⟩
  · rw [Int.natAbs_natCast]
    exact ⟨hunits, Int.natCast_nonneg _⟩

theorem isWhole_of_value_eq {m : Int} (h : x.value = m) : x.IsWhole := by
  rw [IsWhole, (value_eq_iff.mp h).1, Nat.mul_mod_left]

theorem toInt_toInt64 (hlow : -2 ^ 63 ≤ x.whole) (hhigh : x.whole < 2 ^ 63) :
    x.toInt64.toInt = x.whole := by
  rw [toInt64, Int64.toInt_ofInt_of_le (by omega) (by omega)]
  omega

/-- Rounding keeps a whole number at or above another one that needs no rounding. -/
theorem le_value_ofNat {k n : Nat} (h : n < 2 ^ 64) (hle : k ≤ n)
    (hk : Double.units (nearest (k * perOne) 1) = k * perOne) :
    (k : ℚ) ≤ (ofNat false n h).value := by
  have hunits : k * perOne ≤ (ofNat false n h).units := by
    rw [← hk]
    exact units_le_units (nearest_mono Nat.one_pos (Nat.mul_le_mul_right _ hle))
  have hone : (0 : ℚ) < perOne := Nat.cast_pos.mpr perOne_pos
  change (k : ℚ) ≤ (ofNat false n h).units / perOne
  rw [le_div_iff₀ hone]
  exact_mod_cast hunits

end Double.Finite

namespace Json.Number

theorem value_least : least.value = (-2 ^ 63 : Int) := by
  have hunits : least.units = 2 ^ 63 * Double.perOne := by decide +kernel
  exact Double.Finite.value_eq_iff.mpr ⟨hunits, by decide +kernel⟩

/-- The greatest signed integer is rounded up. -/
theorem value_greatest : greatest.value = (2 ^ 63 : Int) := by
  have hunits : greatest.units = 2 ^ 63 * Double.perOne := by decide +kernel
  exact Double.Finite.value_eq_iff.mpr ⟨hunits, by decide +kernel⟩

variable {x : Double.Finite} {n : Number} {t : Int64}

theorem least_le_iff : least ≤ x ↔ (-2 ^ 63 : Int) ≤ x.value := by
  rw [← Double.Finite.value_le_value, value_least]

theorem lt_greatest_iff : x < greatest ↔ x.value < (2 ^ 63 : Int) := by
  rw [← Double.Finite.value_lt_value, value_greatest]

/-- An integer above the signed range is rounded to a double that is no smaller than its end. -/
theorem not_toDouble_lt_greatest {m : Int}
    (bounds : -0x8000000000000000 ≤ m ∧ m < 0x10000000000000000) (h : 2 ^ 63 ≤ m) :
    ¬toDouble (.integer m bounds) < greatest := by
  obtain ⟨n, rfl⟩ := Int.eq_ofNat_of_zero_le (by omega : 0 ≤ m)
  have hsign : decide ((n : Int) < 0) = false := decide_eq_false (by omega)
  have hrange : (2 ^ 63 : Nat) ≤ n := by omega
  have hend : Double.units (Double.nearest (2 ^ 63 * Double.perOne) 1) = 2 ^ 63 * Double.perOne := by
    decide +kernel
  have hle := Double.Finite.le_value_ofNat (by omega : n < 2 ^ 64) hrange hend
  rw [lt_greatest_iff, not_lt, toDouble]
  simp only [hsign, Int.natAbs_natCast]
  exact_mod_cast hle

/-- Between the doubles of the ends a double is cut to the range only where it has a fraction. -/
theorem toInt64_of_between (hwhole : x.IsWhole) (hlow : least ≤ x) (hhigh : x < greatest) :
    x.value = x.toInt64.toInt := by
  have hvalue := Double.Finite.value_of_isWhole hwhole
  rw [least_le_iff, hvalue] at hlow
  rw [lt_greatest_iff, hvalue] at hhigh
  rw [hvalue, Double.Finite.toInt_toInt64 (Int.cast_le.mp hlow) (Int.cast_lt.mp hhigh)]

theorem between_of_value_eq (h : x.value = t.toInt) : least ≤ x ∧ x < greatest := by
  rw [least_le_iff, lt_greatest_iff, h]
  exact ⟨Int.cast_le.mpr t.le_toInt, Int.cast_lt.mpr t.toInt_lt⟩

/-- The doubles that pass for a time are those that are that time. -/
theorem toInt64_eq_iff :
    (x.IsWhole ∧ least ≤ x ∧ x < greatest) ∧ x.toInt64 = t ↔ x.value = t.toInt := by
  constructor
  · rintro ⟨⟨hwhole, hlow, hhigh⟩, rfl⟩
    exact toInt64_of_between hwhole hlow hhigh
  · intro h
    have hwhole := Double.Finite.isWhole_of_value_eq h
    obtain ⟨hlow, hhigh⟩ := between_of_value_eq h
    have hcast := toInt64_of_between hwhole hlow hhigh
    rw [h, Int.cast_inj, Int64.toInt_inj] at hcast
    exact ⟨⟨hwhole, hlow, hhigh⟩, hcast.symm⟩

/-- A number is taken for a time exactly if it is that time. -/
theorem castMillis?_eq_some_iff : n.castMillis? = some t ↔ n.value = t.toInt := by
  cases n with
  | integer m bounds =>
      have hlow := t.le_toInt
      have hhigh := t.toInt_lt
      rw [castMillis?, toInt64?, value, Int.cast_inj]
      by_cases hm : m < 0x8000000000000000
      · rw [if_pos hm, Option.some_inj, ← Int64.toInt_inj,
          Int64.toInt_ofInt_of_le bounds.1 (by omega)]
      · have hfar := not_toDouble_lt_greatest bounds (by omega : 2 ^ 63 ≤ m)
        rw [if_neg hm]
        dsimp only
        rw [if_neg fun h => hfar h.2.2]
        constructor
        · intro h
          cases h
        · intro h
          omega
  | float x =>
      rw [castMillis?, toInt64?, value, toDouble]
      dsimp only
      rw [Option.ite_none_right_eq_some, Option.some_inj, toInt64_eq_iff]

end Json.Number

namespace Json

variable {v : Json} {n : Number} {t : Int64}

theorem toString?_eq_some_iff {s : String} : v.toString? = some s ↔ v.IsString s := by
  cases v <;> simp [toString?, IsString]

theorem isTime_number_iff : (number n).IsTime t ↔ n.value = t.toInt := by
  constructor
  · rintro ⟨_, hn, h⟩
    cases hn
    exact h
  · intro h
    exact ⟨n, rfl, h⟩

theorem toMillis?_number_eq_some_iff : (number n).toMillis? = some t ↔ n.value = t.toInt :=
  Number.castMillis?_eq_some_iff

theorem toMillis?_number_eq_none_iff :
    (number n).toMillis? = none ↔ ∀ t : Int64, n.value ≠ t.toInt := by
  simp only [Option.eq_none_iff_forall_ne_some, ne_eq, toMillis?_number_eq_some_iff]

theorem toMillis?_eq_some_iff : v.toMillis? = some t ↔ v.IsTime t := by
  cases v with
  | number n => rw [isTime_number_iff, toMillis?_number_eq_some_iff]
  | _ => simp [toMillis?, IsTime]

end Json
end LatencyProbe
