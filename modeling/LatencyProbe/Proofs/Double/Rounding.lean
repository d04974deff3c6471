import LatencyProbe.Double.Basic
import Mathlib.Tactic.Ring

/-!
# Rounding keeps the order

Magnitudes are in the order of what they stand for, the distance from one to the next is `spacing`,
and `nearest` is monotone and leaves what a magnitude stands for as it is. So no division by
anything above one makes a magnitude larger, and a scaling down never overflows.
-/

namespace LatencyProbe.Double

/-- How many units lie between a magnitude and the next one. -/
def spacing (m : Nat) : Nat := 1 <<< (m / perBinade - 1)

theorem perBinade_pos : 0 < perBinade := by decide

theorem perOne_pos : 0 < perOne := by
  rw [perOne, Nat.one_shiftLeft]
  generalize 1074 = k
  exact Nat.two_pow_pos k

theorem spacing_pos (m : Nat) : 0 < spacing m := by
  rw [spacing, Nat.one_shiftLeft]
  exact Nat.two_pow_pos _

theorem units_of_lt {m : Nat} (h : m < perBinade) : units m = m := if_pos h

theorem units_of_le {m : Nat} (h : perBinade ≤ m) :
    units m = (perBinade + m % perBinade) * spacing m := by
  rw [units, if_neg (Nat.not_lt.mpr h), Nat.shiftLeft_eq, spacing, Nat.one_shiftLeft]

theorem spacing_of_lt {m : Nat} (h : m < perBinade) : spacing m = 1 := by
  rw [spacing, Nat.div_eq_of_lt h]
  rfl

/-- A magnitude that is not below the second binade, by its binade and its place there. -/
theorem exists_binade {m : Nat} (h : perBinade ≤ m) :
    ∃ q r, r < perBinade ∧ m = (q + 1) * perBinade + r := by
  obtain ⟨q, hq⟩ : ∃ q, m / perBinade = q + 1 :=
    Nat.exists_eq_succ_of_ne_zero (Nat.div_pos h perBinade_pos).ne'
  refine ⟨q, m % perBinade, Nat.mod_lt _ perBinade_pos, ?_⟩
  rw [← hq, Nat.mul_comm, Nat.div_add_mod]

theorem spacing_mul_add {q r : Nat} (hr : r < perBinade) :
    spacing ((q + 1) * perBinade + r) = 2 ^ q := by
  have hdiv : ((q + 1) * perBinade + r) / perBinade = q + 1 := by
    rw [Nat.mul_comm, Nat.mul_add_div perBinade_pos, Nat.div_eq_of_lt hr, Nat.add_zero]
  rw [spacing, hdiv, Nat.one_shiftLeft, Nat.add_sub_cancel]

theorem units_mul_add {q r : Nat} (hr : r < perBinade) :
    units ((q + 1) * perBinade + r) = (perBinade + r) * 2 ^ q := by
  have hmod : ((q + 1) * perBinade + r) % perBinade = r := by
    rw [Nat.mul_comm, Nat.mul_add_mod, Nat.mod_eq_of_lt hr]
  have hle : perBinade ≤ (q + 1) * perBinade + r := by
    rw [Nat.add_mul, Nat.one_mul]
    omega
  rw [units_of_le hle, hmod, spacing_mul_add hr]

/-- The magnitude of one. -/
theorem units_one : units (1023 * perBinade) = perOne := by
  have hone : 1023 * perBinade = (1022 + 1) * perBinade + 0 := rfl
  have hbinade : perBinade + 0 = 2 ^ 52 := rfl
  have hperOne : perOne = 1 <<< (52 + 1022) := rfl
  rw [hone, units_mul_add perBinade_pos, hbinade, ← Nat.pow_add, hperOne, Nat.one_shiftLeft]

theorem units_succ (m : Nat) : units (m + 1) = units m + spacing m := by
  by_cases hm : perBinade ≤ m
  · obtain ⟨q, r, hr, rfl⟩ := exists_binade hm
    rw [units_mul_add hr, spacing_mul_add hr]
    by_cases hlast : r + 1 < perBinade
    · rw [Nat.add_assoc, units_mul_add hlast]
      ring
    · -- The last magnitude of a binade: the next one begins a binade with twice the spacing.
      have hnext : (q + 1) * perBinade + r + 1 = (q + 1 + 1) * perBinade + 0 := by
        rw [Nat.add_mul (q + 1)]
        omega
      have hr' : perBinade = r + 1 := by omega
      rw [hnext, units_mul_add perBinade_pos, Nat.pow_succ, Nat.add_zero]
      calc perBinade * (2 ^ q * 2) = (perBinade + perBinade) * 2 ^ q := by ring
        _ = (perBinade + (r + 1)) * 2 ^ q := by rw [← hr']
        _ = (perBinade + r) * 2 ^ q + 2 ^ q := by ring
  · rw [Nat.not_le] at hm
    rw [units_of_lt hm, spacing_of_lt hm]
    by_cases hlast : m + 1 < perBinade
    · exact units_of_lt hlast
    · obtain rfl : m = perBinade - 1 := by omega
      rfl

theorem units_lt_units {a b : Nat} (h : a < b) : units a < units b := by
  induction h with
  | refl =>
      have := spacing_pos a
      rw [units_succ]
      omega
  | step _ ih =>
      rw [units_succ]
      omega

theorem units_le_units {a b : Nat} (h : a ≤ b) : units a ≤ units b := by
  rcases Nat.lt_or_eq_of_le h with hlt | rfl
  · exact Nat.le_of_lt (units_lt_units hlt)
  · exact Nat.le_refl _

theorem units_pos {m : Nat} (h : 0 < m) : 0 < units m := units_lt_units h

theorem div_le_roundHalfEven (num den : Nat) : num / den ≤ roundHalfEven num den := by
  rw [roundHalfEven]
  split <;> omega

theorem roundHalfEven_mono {num num' den : Nat} (hden : 0 < den) (h : num ≤ num') :
    roundHalfEven num den ≤ roundHalfEven num' den := by
  have hdiv : num / den ≤ num' / den := Nat.div_le_div_right h
  rcases Nat.lt_or_eq_of_le hdiv with hlt | heq
  · calc roundHalfEven num den ≤ num / den + 1 := roundHalfEven_le num den
      _ ≤ num' / den := hlt
      _ ≤ roundHalfEven num' den := div_le_roundHalfEven num' den
  · -- The same quotient: the larger remainder is rounded up if the smaller one is.
    have hmod : num % den ≤ num' % den := by
      have hnum := Nat.div_add_mod num den
      have hnum' := Nat.div_add_mod num' den
      rw [← heq] at hnum'
      omega
    have hlt := Nat.mod_lt num' hden
    unfold roundHalfEven
    split_ifs <;> omega

theorem roundHalfEven_mul_right {num den c : Nat} (hc : 0 < c) :
    roundHalfEven (num * c) (den * c) = roundHalfEven num den := by
  have hlt : 2 * (num % den * c) < den * c ↔ 2 * (num % den) < den := by
    rw [← Nat.mul_assoc, Nat.mul_lt_mul_right hc]
  have heq : 2 * (num % den * c) = den * c ↔ 2 * (num % den) = den := by
    rw [← Nat.mul_assoc, Nat.mul_left_inj hc.ne']
  unfold roundHalfEven
  rw [Nat.mul_mod_mul_right, Nat.mul_div_mul_right _ _ hc]
  simp only [hlt, heq]

theorem roundHalfEven_of_dvd {n c : Nat} (hc : 0 < c) : roundHalfEven (n * c) c = n := by
  have h : roundHalfEven (n * c) (1 * c) = roundHalfEven n 1 := roundHalfEven_mul_right hc
  rw [Nat.one_mul] at h
  rw [h]
  simp [roundHalfEven, Nat.mod_one]

/-- The exponent that `nearest` rounds at: the quotient has 53 binary digits above it, or fewer if
it is zero. -/
theorem exists_nearest_eq (num den : Nat) :
    ∃ k, nearest num den = k * perBinade + roundHalfEven num (den * 2 ^ k) ∧
      num / den < 2 ^ (53 + k) ∧ (0 < k → 2 ^ (52 + k) ≤ num / den) := by
  refine ⟨(num / den).log2 - 52, by rw [nearest, Nat.shiftLeft_eq], ?_, ?_⟩
  · exact Nat.lt_of_lt_of_le Nat.lt_log2_self (Nat.pow_le_pow_right (by decide) (by omega))
  · intro hk
    have hzero : num / den ≠ 0 := by
      rintro hzero
      simp [hzero] at hk
    exact Nat.le_trans (Nat.pow_le_pow_right (by decide) (by omega)) (Nat.log2_self_le hzero)

theorem nearest_mono {num num' den : Nat} (hden : 0 < den) (h : num ≤ num') :
    nearest num den ≤ nearest num' den := by
  have hdiv : num / den ≤ num' / den := Nat.div_le_div_right h
  obtain ⟨k, hnear, hlt, hle⟩ := exists_nearest_eq num den
  obtain ⟨k', hnear', hlt', hle'⟩ := exists_nearest_eq num' den
  have hk : k ≤ k' := by
    rcases Nat.eq_zero_or_pos k with rfl | hpos
    · exact Nat.zero_le _
    · have := (Nat.pow_lt_pow_iff_right (by decide : 1 < 2)).mp
        (Nat.lt_of_le_of_lt ((hle hpos).trans hdiv) hlt')
      omega
  rcases Nat.lt_or_eq_of_le hk with hlt | rfl
  · -- The smaller quotient reaches the end of its binade at most, the larger one begins its own.
    have hbelow : nearest num den ≤ (k + 2) * perBinade := by
      apply nearest_le
      rwa [Nat.one_shiftLeft]
    have hwhole : perBinade ≤ num' / (den * 2 ^ k') := by
      rw [← Nat.div_div_eq_div_mul, Nat.le_div_iff_mul_le (Nat.two_pow_pos _)]
      calc perBinade * 2 ^ k' = 2 ^ (52 + k') := by rw [Nat.pow_add]; rfl
        _ ≤ num' / den := hle' (by omega)
    have hround := hwhole.trans (div_le_roundHalfEven _ _)
    calc nearest num den ≤ (k + 2) * perBinade := hbelow
      _ ≤ (k' + 1) * perBinade := Nat.mul_le_mul_right _ (by omega)
      _ = k' * perBinade + perBinade := by rw [Nat.add_mul, Nat.one_mul]
      _ ≤ nearest num' den := by rw [hnear']; exact Nat.add_le_add_left hround _
  · rw [hnear, hnear']
    exact Nat.add_le_add_left
      (roundHalfEven_mono (Nat.mul_pos hden (Nat.two_pow_pos _)) h) _

theorem nearest_mul_right {num den c : Nat} (hc : 0 < c) :
    nearest (num * c) (den * c) = nearest num den := by
  simp only [nearest, Nat.mul_div_mul_right _ _ hc, Nat.shiftLeft_eq]
  rw [Nat.mul_right_comm den, roundHalfEven_mul_right hc]

/-- What a magnitude stands for is not rounded. -/
@[simp] theorem nearest_units (m : Nat) : nearest (units m) 1 = m := by
  by_cases hm : perBinade ≤ m
  · obtain ⟨q, r, hr, rfl⟩ := exists_binade hm
    have hlog : (units ((q + 1) * perBinade + r)).log2 = 52 + q := by
      have hpos : units ((q + 1) * perBinade + r) ≠ 0 :=
        (units_pos (Nat.lt_of_lt_of_le perBinade_pos hm)).ne'
      rw [Nat.log2_eq_iff hpos, units_mul_add hr, Nat.pow_add, Nat.add_right_comm 52,
        Nat.pow_add]
      constructor
      · exact Nat.mul_le_mul_right _ (Nat.le_add_right perBinade r)
      · refine Nat.mul_lt_mul_of_pos_right ?_ (Nat.two_pow_pos q)
        change perBinade + r < perBinade + perBinade
        omega
    rw [nearest, Nat.div_one, hlog, Nat.add_sub_cancel_left, Nat.one_shiftLeft, units_mul_add hr,
      roundHalfEven_of_dvd (Nat.two_pow_pos q)]
    ring
  · rw [Nat.not_le] at hm
    have hlog : m.log2 - 52 = 0 := by
      rcases Nat.eq_zero_or_pos m with rfl | hpos
      · rfl
      · have hlt : m < 2 ^ 52 := hm
        have := (Nat.log2_lt hpos.ne').mpr hlt
        omega
    have hround : roundHalfEven (m * 1) 1 = m := roundHalfEven_of_dvd Nat.one_pos
    rw [units_of_lt hm, nearest, Nat.div_one, hlog, Nat.zero_mul, Nat.zero_add]
    rwa [Nat.mul_one] at hround

theorem product_mono {a a' b b' : Nat} (ha : a ≤ a') (hb : b ≤ b') : product a b ≤ product a' b' :=
  nearest_mono perOne_pos (Nat.mul_le_mul (units_le_units ha) (units_le_units hb))

/-- Division by one or more makes nothing larger. -/
theorem quotient_le {b : Nat} (h : perOne ≤ units b) (a : Nat) : quotient a b ≤ a := by
  have hpos : 0 < units b := Nat.lt_of_lt_of_le perOne_pos h
  calc quotient a b ≤ nearest (units a * units b) (units b) :=
        nearest_mono hpos (Nat.mul_le_mul_left _ h)
    _ = nearest (units a * units b) (1 * units b) := by rw [Nat.one_mul]
    _ = a := by rw [nearest_mul_right hpos, nearest_units]

theorem perOne_le_units_powerOfTen (k : Nat) : perOne ≤ units (powerOfTen k) := by
  have hle : perOne ≤ Nat.pow 10 k * perOne := Nat.le_mul_of_pos_left _ (Nat.pow_pos (by decide))
  have hpower : 1023 * perBinade ≤ powerOfTen k := by
    calc 1023 * perBinade = nearest (units (1023 * perBinade)) 1 := (nearest_units _).symm
      _ = nearest perOne 1 := by rw [units_one]
      _ ≤ powerOfTen k := nearest_mono Nat.one_pos hle
  calc perOne = units (1023 * perBinade) := units_one.symm
    _ ≤ units (powerOfTen k) := units_le_units hpower

theorem shrink_le (blocks m : Nat) : shrink blocks m ≤ m := by
  induction blocks generalizing m with
  | zero => exact Nat.le_refl m
  | succ blocks ih =>
      rw [shrink]
      split
      · exact Nat.zero_le m
      · exact (ih _).trans (quotient_le (perOne_le_units_powerOfTen 308) m)

/-- Scaling down has a result, which is no larger. -/
theorem scale_negSucc (m e : Nat) : ∃ n, scale m (.negSucc e) = some n ∧ n ≤ m :=
  ⟨_, rfl, (quotient_le (perOne_le_units_powerOfTen _) _).trans (shrink_le _ _)⟩

theorem scale_natCast {m e : Nat} (he : e ≤ 308) (h : product m (powerOfTen e) < limit) :
    scale m (e : Int) = some (product m (powerOfTen e)) := by
  change scale m (.ofNat e) = _
  rw [scale, if_pos he, if_pos h]

theorem magnitude_of_ofMagnitude? {negative : Bool} {m : Nat} {x : Finite}
    (h : Finite.ofMagnitude? negative m = some x) : x.magnitude = m := by
  rw [Finite.ofMagnitude?] at h
  split_ifs at h
  rw [← Option.some.inj h]

theorem product_of_scale {m n e : Nat} (hm : m ≠ 0) (h : scale m (e : Int) = some n) :
    n = product m (powerOfTen e) := by
  change scale m (.ofNat e) = some n at h
  rw [scale] at h
  split_ifs at h with hle hlt
  exact (Option.some.inj h).symm

theorem product_powerOfTen_zero (m : Nat) : product m (powerOfTen 0) = m := by
  have hone : units (powerOfTen 0) = perOne := by
    have hzero : powerOfTen 0 = nearest (units (1023 * perBinade)) 1 := by
      rw [powerOfTen, units_one, Nat.pow_eq, Nat.pow_zero, Nat.one_mul]
    rw [hzero, nearest_units, units_one]
  calc product m (powerOfTen 0) = nearest (units m * perOne) (1 * perOne) := by
        rw [product, hone, Nat.one_mul]
    _ = m := by rw [nearest_mul_right perOne_pos, nearest_units]

end LatencyProbe.Double
