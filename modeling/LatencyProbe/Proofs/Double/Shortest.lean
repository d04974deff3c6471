import LatencyProbe.Double.Shortest
import LatencyProbe.Proofs.Double.Rounding

/-!
# Seventeen digits are enough

`shortest` tries grids of up to seventeen digits and falls back to zero if none of them has a point
that rounds to the magnitude. It never has to: on the last grid two neighbouring points are closer
to each other than the two ends of the interval that rounds to the magnitude. So the decimal that is
printed always rounds to the magnitude, has at most seventeen digits, and is not zero.
-/

namespace LatencyProbe.Double

/-- A number with `k + 1` digits. -/
theorem pow_le_and_lt_of_length {n k : Nat} (hn : 0 < n) (h : (Nat.toDigits 10 n).length = k + 1) :
    10 ^ k ≤ n ∧ n < 10 ^ (k + 1) := by
  constructor
  · rcases Nat.eq_zero_or_pos k with rfl | hk
    · exact hn
    · by_contra hlt
      have := (Nat.length_toDigits_le_iff (by decide) hk).mpr (Nat.not_le.mp hlt)
      omega
  · exact (Nat.length_toDigits_le_iff (by decide) (Nat.succ_pos k)).mp h.le

theorem exists_length_toDigits (n : Nat) : ∃ k, (Nat.toDigits 10 n).length = k + 1 :=
  Nat.exists_eq_succ_of_ne_zero (Nat.length_toDigits_pos (b := 10)).ne'

/-- What magnitudes are scaled up by, to be whole numbers of one or more. -/
def upscale : Nat := Nat.pow 10 324

theorem upscale_pos : 0 < upscale := by
  unfold upscale
  generalize 324 = k
  exact Nat.pow_pos (by decide)

theorem pow_add_upscale (n : Nat) : 10 ^ (324 + n) = upscale * 10 ^ n := by
  unfold upscale
  generalize 324 = k
  exact Nat.pow_add 10 k n

/-- In units and scaled up, a magnitude lies between two neighbouring powers of ten. -/
theorem leadingExponent_spec {m : Nat} (hm : 0 < m) :
    ∃ k : Nat, leadingExponent m = k - 324 ∧ 10 ^ k * perOne ≤ units m * upscale ∧
      units m * upscale < 10 ^ (k + 1) * perOne := by
  obtain ⟨k, hk⟩ := exists_length_toDigits (units m * upscale / perOne)
  have hscaled : perOne ≤ units m * upscale :=
    (by decide +kernel : perOne ≤ upscale).trans (Nat.le_mul_of_pos_left _ (units_pos hm))
  obtain ⟨hlow, hhigh⟩ := pow_le_and_lt_of_length (Nat.div_pos hscaled perOne_pos) hk
  have hexponent : leadingExponent m = k - 324 := by
    unfold upscale at hk
    rw [leadingExponent]
    rw [hk, Nat.cast_succ]
    ring
  exact ⟨k, hexponent, (Nat.le_div_iff_mul_le perOne_pos).mp hlow,
    (Nat.div_lt_iff_lt_mul perOne_pos).mp hhigh⟩

theorem gridStep_of_neg {g : Int} {j : Nat} (h : g = -j) (hj : 0 < j) :
    gridStep g = (perOne, 10 ^ j) := by
  rw [gridStep, if_pos (by omega), show (-g).toNat = j by omega]
  rfl

theorem gridStep_natCast (j : Nat) : gridStep j = (perOne * 10 ^ j, 1) := by
  rw [gridStep, if_neg (by omega), Int.toNat_natCast]
  rfl

theorem gridStep_pos (g : Int) : 0 < (gridStep g).1 ∧ 0 < (gridStep g).2 := by
  rw [gridStep]
  split
  · exact ⟨perOne_pos, Nat.pow_pos (by decide)⟩
  · exact ⟨Nat.mul_pos perOne_pos (Nat.pow_pos (by decide)), Nat.one_pos⟩

/-- On the grid of `n + 1` digits a magnitude is between `10 ^ n` and `10 ^ (n + 1)` steps. -/
theorem gridStep_leadingExponent {m : Nat} (hm : 0 < m) (n : Nat) :
    10 ^ n * (gridStep (leadingExponent m - n)).1 ≤
        units m * (gridStep (leadingExponent m - n)).2 ∧
      units m * (gridStep (leadingExponent m - n)).2 <
        10 ^ (n + 1) * (gridStep (leadingExponent m - n)).1 := by
  obtain ⟨k, hk, hlow, hhigh⟩ := leadingExponent_spec hm
  by_cases hg : leadingExponent m - n < 0
  · obtain ⟨j, hj⟩ : ∃ j, 324 + n = k + j := ⟨324 + n - k, by omega⟩
    rw [gridStep_of_neg (j := j) (by omega) (by omega)]
    have hscale : units m * 10 ^ j * 10 ^ k = units m * upscale * 10 ^ n := by
      rw [Nat.mul_assoc, ← Nat.pow_add, Nat.add_comm, ← hj, pow_add_upscale, Nat.mul_assoc]
    constructor
    · refine Nat.le_of_mul_le_mul_right (c := 10 ^ k) ?_ (Nat.pow_pos (by decide))
      calc 10 ^ n * perOne * 10 ^ k = 10 ^ k * perOne * 10 ^ n := by ring
        _ ≤ units m * upscale * 10 ^ n := Nat.mul_le_mul_right _ hlow
        _ = units m * 10 ^ j * 10 ^ k := hscale.symm
    · apply Nat.lt_of_mul_lt_mul_right (a := 10 ^ k)
      calc units m * 10 ^ j * 10 ^ k = units m * upscale * 10 ^ n := hscale
        _ < 10 ^ (k + 1) * perOne * 10 ^ n :=
            Nat.mul_lt_mul_of_pos_right hhigh (Nat.pow_pos (by decide))
        _ = 10 ^ (n + 1) * perOne * 10 ^ k := by ring
  · obtain ⟨j, hj⟩ : ∃ j, k = 324 + (n + j) := ⟨k - (324 + n), by omega⟩
    rw [show leadingExponent m - n = (j : Int) by omega, gridStep_natCast, Nat.mul_one]
    rw [Nat.pow_succ, hj, pow_add_upscale] at hhigh
    rw [hj, pow_add_upscale] at hlow
    constructor
    · refine Nat.le_of_mul_le_mul_right (c := upscale) ?_ upscale_pos
      calc 10 ^ n * (perOne * 10 ^ j) * upscale = upscale * 10 ^ (n + j) * perOne := by ring
        _ ≤ units m * upscale := hlow
    · apply Nat.lt_of_mul_lt_mul_right (a := upscale)
      calc units m * upscale < upscale * 10 ^ (n + j) * 10 * perOne := hhigh
        _ = 10 ^ (n + 1) * (perOne * 10 ^ j) * upscale := by ring

section Points

variable {m c : Nat} {g : Int}

theorem roundsTo_of_lt
    (hlow : (units (m - 1) + units m) * (gridStep g).2 < 2 * c * (gridStep g).1)
    (hhigh : 2 * c * (gridStep g).1 < (units m + units (m + 1)) * (gridStep g).2) :
    roundsTo m g c := by
  simp only [roundsTo]
  split
  · simp [hlow.le, hhigh.le]
  · simp [hlow, hhigh]

theorem le_of_roundsTo (h : roundsTo m g c) :
    2 * c * (gridStep g).1 ≤ (units m + units (m + 1)) * (gridStep g).2 := by
  simp only [roundsTo] at h
  split at h
  · simp only [Bool.and_eq_true, decide_eq_true_eq] at h
    exact h.2
  · simp only [Bool.and_eq_true, decide_eq_true_eq] at h
    exact h.2.le

theorem roundHalfEven_eq_or (num den : Nat) :
    roundHalfEven num den = num / den ∨ roundHalfEven num den = num / den + 1 := by
  rw [roundHalfEven]
  split
  · exact .inl rfl
  · exact .inr rfl

/-- A point taken from a grid is one of the two next to the magnitude, and rounds to it. -/
theorem onGrid?_eq_some {d : Decimal} (h : onGrid? m g = some d) :
    ∃ c, d = ⟨c, g⟩ ∧ roundsTo m g c ∧
      (c = units m * (gridStep g).2 / (gridStep g).1 ∨
        c = units m * (gridStep g).2 / (gridStep g).1 + 1) := by
  simp only [onGrid?] at h
  split at h
  · next hbelow habove =>
    cases h
    refine ⟨_, rfl, ?_, roundHalfEven_eq_or _ _⟩
    rcases roundHalfEven_eq_or (units m * (gridStep g).2) (gridStep g).1 with heq | heq
    · rw [heq]
      exact hbelow
    · rw [heq]
      exact habove
  · next hbelow _ =>
    cases h
    exact ⟨_, rfl, hbelow, .inl rfl⟩
  · next _ habove =>
    cases h
    exact ⟨_, rfl, habove, .inr rfl⟩
  · cases h

/-- If a step of the grid is shorter than half of what lies between the two neighbours of the
magnitude, one of the two points next to it rounds to it. -/
theorem isSome_onGrid? (hm : 0 < m)
    (h : 2 * (gridStep g).1 < (units (m + 1) - units (m - 1)) * (gridStep g).2) :
    (onGrid? m g).isSome := by
  have hstep := (gridStep_pos g).1
  have hsize := (gridStep_pos g).2
  have hdiv := Nat.div_add_mod (units m * (gridStep g).2) (gridStep g).1
  have hmod := Nat.mod_lt (units m * (gridStep g).2) hstep
  have hprev : units (m - 1) < units m := units_lt_units (by omega)
  have hnext : units m < units (m + 1) := units_lt_units (by omega)
  simp only [onGrid?]
  generalize units m * (gridStep g).2 / (gridStep g).1 = below at hdiv
  have hpoint : below * (gridStep g).1 = (gridStep g).1 * below := Nat.mul_comm _ _
  have hbelowHigh : 2 * below * (gridStep g).1 < (units m + units (m + 1)) * (gridStep g).2 := by
    have := Nat.mul_lt_mul_of_pos_right hnext hsize
    rw [Nat.add_mul, Nat.mul_assoc]
    omega
  have haboveLow :
      (units (m - 1) + units m) * (gridStep g).2 < 2 * (below + 1) * (gridStep g).1 := by
    have := Nat.mul_lt_mul_of_pos_right hprev hsize
    rw [Nat.add_mul, Nat.mul_assoc, Nat.add_mul, Nat.one_mul]
    omega
  by_cases hlow : (units (m - 1) + units m) * (gridStep g).2 < 2 * below * (gridStep g).1
  · have hbelow : roundsTo m g below := roundsTo_of_lt hlow hbelowHigh
    rw [hbelow]
    cases roundsTo m g (below + 1) <;> rfl
  · have habove : roundsTo m g (below + 1) := by
      apply roundsTo_of_lt haboveLow
      have hgap : units (m - 1) * (gridStep g).2 +
          (units (m + 1) - units (m - 1)) * (gridStep g).2 = units (m + 1) * (gridStep g).2 := by
        rw [← Nat.add_mul]
        congr 1
        omega
      rw [Nat.add_mul, Nat.mul_assoc] at hlow ⊢
      rw [Nat.add_mul below, Nat.one_mul]
      omega
    rw [habove]
    cases roundsTo m g below <;> rfl

end Points

/-- A magnitude is below `2 ^ 52` times the distance between its neighbours. -/
theorem units_lt_mul_gaps {m : Nat} (hm : 0 < m) :
    units m < 2 ^ 52 * (units (m + 1) - units (m - 1)) := by
  have hsucc := units_succ m
  have hpred : units m = units (m - 1) + spacing (m - 1) := by
    rw [← units_succ, Nat.sub_add_cancel hm]
  have hgaps : units (m + 1) - units (m - 1) = spacing m + spacing (m - 1) := by omega
  rw [hgaps]
  by_cases hle : perBinade ≤ m
  · obtain ⟨q, r, hr, rfl⟩ := exists_binade hle
    rw [units_mul_add hr, spacing_mul_add hr]
    rcases Nat.eq_zero_or_pos r with rfl | hpos
    · -- The first of a binade: the spacing before it counts for little, but it is not zero.
      have hprev := spacing_pos ((q + 1) * perBinade + 0 - 1)
      rw [Nat.add_zero perBinade, Nat.mul_add]
      have : perBinade * 2 ^ q = 2 ^ 52 * 2 ^ q := rfl
      omega
    · have hsame : (q + 1) * perBinade + r - 1 = (q + 1) * perBinade + (r - 1) := by omega
      rw [hsame, spacing_mul_add (by omega), ← Nat.two_mul, ← Nat.mul_assoc]
      refine Nat.mul_lt_mul_of_pos_right ?_ (Nat.two_pow_pos q)
      change perBinade + r < perBinade * 2
      omega
  · rw [Nat.not_le] at hle
    rw [units_of_lt hle, spacing_of_lt hle, spacing_of_lt (by omega)]
    change m < perBinade * 2
    omega

/-- The seventeenth grid is fine enough for every magnitude. -/
theorem isSome_onGrid?_sixteen {m : Nat} (hm : 0 < m) :
    (onGrid? m (leadingExponent m - (16 : Nat))).isSome := by
  refine isSome_onGrid? hm ?_
  have hsteps := (gridStep_leadingExponent hm 16).1
  have hsize := (gridStep_pos (leadingExponent m - (16 : Nat))).2
  have hgaps := Nat.mul_lt_mul_of_pos_right (units_lt_mul_gaps hm) hsize
  generalize gridStep (leadingExponent m - (16 : Nat)) = step at *
  rw [Nat.mul_assoc] at hgaps
  omega

/-- The decimal that is printed for a magnitude: where it lies and how many digits it has. -/
theorem shortest_spec {m : Nat} (hm : 0 < m) :
    ∃ n c, n ≤ 16 ∧ shortest m = ⟨c, leadingExponent m - (n : Nat)⟩ ∧ 0 < c ∧ c ≤ 10 ^ (n + 1) ∧
      roundsTo m (leadingExponent m - (n : Nat)) c := by
  have hsome :
      ((List.range 17).findSome? fun n => onGrid? m (leadingExponent m - (n : Nat))).isSome :=
    List.findSome?_isSome_iff.mpr ⟨16, by decide, isSome_onGrid?_sixteen hm⟩
  obtain ⟨d, hd⟩ := Option.isSome_iff_exists.mp hsome
  have hshortest : shortest m = d := by rw [shortest, hd, Option.getD_some]
  obtain ⟨n, hn, hgrid⟩ := List.exists_of_findSome?_eq_some hd
  obtain ⟨c, rfl, hrounds, hc⟩ := onGrid?_eq_some hgrid
  obtain ⟨hlow, hhigh⟩ := gridStep_leadingExponent hm n
  have hstep := (gridStep_pos (leadingExponent m - (n : Nat))).1
  have hbelow := (Nat.le_div_iff_mul_le hstep).mpr hlow
  have habove := (Nat.div_lt_iff_lt_mul hstep).mpr hhigh
  have hpos : 0 < 10 ^ n := Nat.pow_pos (by decide)
  rw [List.mem_range] at hn
  exact ⟨n, c, by omega, hshortest, by omega, by omega, hrounds⟩

theorem leadingExponent_bounds {m : Nat} (hm : 0 < m) (hlt : m < limit) :
    -324 ≤ leadingExponent m ∧ leadingExponent m < 376 := by
  obtain ⟨k, hk, hlow, -⟩ := leadingExponent_spec hm
  have hbig : units limit * upscale < 10 ^ 200 * 10 ^ 200 * 10 ^ 200 * 10 ^ 100 * perOne := by
    decide +kernel
  have hsmall : k < 700 := by
    by_contra hge
    have hpow : 10 ^ 200 * 10 ^ 200 * 10 ^ 200 * 10 ^ 100 ≤ 10 ^ k := by
      obtain ⟨j, rfl⟩ : ∃ j, k = 200 + (200 + (200 + (100 + j))) := ⟨k - 700, by omega⟩
      simp only [Nat.pow_add, ← Nat.mul_assoc]
      exact Nat.le_mul_of_pos_right _ (Nat.pow_pos (by decide))
    have hle : units m * upscale ≤ units limit * upscale :=
      Nat.mul_le_mul_right _ (units_le_units hlt.le)
    exact absurd (Nat.mul_le_mul_right perOne hpow)
      (Nat.not_le.mpr (Nat.lt_of_le_of_lt (hlow.trans hle) hbig))
  omega

/-- A decimal with whole exponent that rounds to a magnitude is no larger than the midpoint to the
next one. -/
theorem two_mul_le_of_roundsTo {m c s z k : Nat} {g : Int} (h : roundsTo m g c)
    (hc : s * 10 ^ z = c) (hk : g + z = k) :
    2 * (s * 10 ^ k * perOne) ≤ units m + units (m + 1) := by
  have hle := le_of_roundsTo h
  subst hc
  by_cases hg : g < 0
  · obtain ⟨j, rfl⟩ : ∃ j : Nat, g = -j := ⟨(-g).toNat, by omega⟩
    have hz : z = k + j := by omega
    rw [gridStep_of_neg rfl (by omega)] at hle
    refine Nat.le_of_mul_le_mul_right (c := 10 ^ j) ?_ (Nat.pow_pos (by decide))
    calc 2 * (s * 10 ^ k * perOne) * 10 ^ j = 2 * (s * 10 ^ z) * perOne := by
          rw [hz]
          ring
      _ ≤ (units m + units (m + 1)) * 10 ^ j := hle
  · obtain ⟨j, rfl⟩ : ∃ j : Nat, g = j := ⟨g.toNat, by omega⟩
    have hk' : k = j + z := by omega
    rw [gridStep_natCast, Nat.mul_one] at hle
    calc 2 * (s * 10 ^ k * perOne) = 2 * (s * 10 ^ z) * (perOne * 10 ^ j) := by
          rw [hk']
          ring
      _ ≤ units m + units (m + 1) := hle

/-- Twice the midpoint between the two greatest magnitudes. -/
def topMidpoint : Nat := units (limit - 2) + units (limit - 1)

/-- The greatest significand that may stand before an exponent, for all magnitudes but the greatest
one. -/
def cap (k : Nat) : Nat := min 99999999999999999 (topMidpoint / (2 * perOne * Nat.pow 10 k))

theorem cap_first : cap 291 = 99999999999999999 := by decide +kernel

theorem powerOfTen_mono {j k : Nat} (h : j ≤ k) : powerOfTen j ≤ powerOfTen k :=
  nearest_mono Nat.one_pos (Nat.mul_le_mul_right _ (Nat.pow_le_pow_right (by decide) h))

/-- The greatest magnitude has a decimal that would be out of range with a seventeenth digit one
larger, and that decimal would round to the same magnitude. -/
theorem shortest_limit : shortest (limit - 1) = ⟨17976931348623157, 292⟩ := by
  decide +kernel

theorem product_limit :
    product (nearest (17976931348623157 * perOne) 1) (powerOfTen 292) < limit := by
  decide +kernel

/-- The binary logarithm, 64 digits at a time. It is there to be evaluated: `Nat.log2` halves its
argument digit by digit, and magnitudes are taken from numbers of two thousand digits. -/
def log2By : Nat → Nat → Nat
  | 0, n => n.log2
  | steps + 1, n => if n < 2 ^ 64 then n.log2 else log2By steps (n / 2 ^ 64) + 64

theorem log2By_eq (steps n : Nat) : log2By steps n = n.log2 := by
  induction steps generalizing n with
  | zero => rfl
  | succ steps ih =>
      rw [log2By]
      split
      · rfl
      · next h =>
        have hle : 2 ^ 64 ≤ n := Nat.not_lt.mp h
        have hquotient : n / 2 ^ 64 ≠ 0 := (Nat.div_pos hle (Nat.two_pow_pos 64)).ne'
        have hn : n ≠ 0 := by omega
        rw [ih, eq_comm, Nat.log2_eq_iff hn]
        have hlow := Nat.log2_self_le hquotient
        have hhigh := Nat.lt_log2_self (n := n / 2 ^ 64)
        rw [Nat.pow_add, Nat.add_right_comm, Nat.pow_add]
        constructor
        · exact (Nat.le_div_iff_mul_le (Nat.two_pow_pos 64)).mp hlow
        · exact (Nat.div_lt_iff_lt_mul (Nat.two_pow_pos 64)).mp hhigh

/-- The products of greatest significands and powers of ten are rounded down far enough. With
seventeen digits a smaller exponent than the first of these is never too great. -/
theorem product_cap_lt :
    ∀ j < 18, product (nearest (cap (291 + j) * perOne) 1) (powerOfTen (291 + j)) < limit := by
  simp only [product, powerOfTen, nearest, ← log2By_eq 40]
  decide +kernel

/-- Multiplying out the shortest decimal never overflows, though it rounds three times. -/
theorem product_shortest_lt {m c s z k : Nat} {g : Int} (hm : 0 < m) (hlt : m < limit)
    (h : shortest m = ⟨c, g⟩) (hc : s * 10 ^ z = c) (hk : g + z = k) (hs : s < 10 ^ 17) :
    k ≤ 308 ∧ product (nearest (s * perOne) 1) (powerOfTen k) < limit := by
  by_cases hlast : m = limit - 1
  · subst hlast
    rw [shortest_limit] at h
    cases h
    cases z with
    | zero =>
        obtain rfl : s = 17976931348623157 := by simpa using hc
        obtain rfl : k = 292 := by omega
        exact ⟨by decide, product_limit⟩
    | succ z =>
        rw [Nat.pow_succ, ← Nat.mul_assoc] at hc
        omega
  · obtain ⟨n, d, -, hd, hpos, -, hrounds⟩ := shortest_spec hm
    cases h.symm.trans hd
    have hmid : 2 * (s * 10 ^ k * perOne) ≤ topMidpoint :=
      (two_mul_le_of_roundsTo hrounds hc hk).trans
        (Nat.add_le_add (units_le_units (by omega)) (units_le_units (by omega)))
    have hspos : 0 < s := Nat.pos_of_mul_pos_right (hc ▸ hpos)
    have hk' : k < 309 := by
      by_contra hge
      have hbig : topMidpoint < 2 * (10 ^ 200 * 10 ^ 109 * perOne) := by decide +kernel
      have hpow : 10 ^ 200 * 10 ^ 109 ≤ s * 10 ^ k := by
        obtain ⟨j, rfl⟩ : ∃ j, k = 200 + (109 + j) := ⟨k - 309, by omega⟩
        have hj : 0 < 10 ^ j := Nat.pow_pos (by decide)
        rw [Nat.pow_add, Nat.pow_add, ← Nat.mul_assoc (10 ^ 200)]
        exact (Nat.le_mul_of_pos_right _ hj).trans (Nat.le_mul_of_pos_left _ hspos)
      have := Nat.mul_le_mul_right perOne hpow
      omega
    have hcap : s ≤ cap k := by
      refine Nat.le_min.mpr ⟨by omega, ?_⟩
      have hden : 0 < 2 * perOne * 10 ^ k :=
        Nat.mul_pos (Nat.mul_pos (by decide) perOne_pos) (Nat.pow_pos (by decide))
      apply (Nat.le_div_iff_mul_le hden).mpr
      calc s * (2 * perOne * 10 ^ k) = 2 * (s * 10 ^ k * perOne) := by ring
        _ ≤ topMidpoint := hmid
    refine ⟨by omega, ?_⟩
    by_cases hfirst : k < 291
    · have hs' : s ≤ cap 291 := by
        rw [cap_first]
        omega
      refine Nat.lt_of_le_of_lt ?_ (product_cap_lt 0 (by decide))
      exact product_mono (nearest_mono Nat.one_pos (Nat.mul_le_mul_right _ hs'))
        (powerOfTen_mono (by omega))
    · obtain ⟨j, rfl⟩ := Nat.exists_eq_add_of_le (Nat.not_lt.mp hfirst)
      refine Nat.lt_of_le_of_lt ?_ (product_cap_lt j (by omega))
      exact product_mono (nearest_mono Nat.one_pos (Nat.mul_le_mul_right _ hcap)) (Nat.le_refl _)

end LatencyProbe.Double
