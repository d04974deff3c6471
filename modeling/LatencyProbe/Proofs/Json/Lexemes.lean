import LatencyProbe.Proofs.Double.Shortest
import LatencyProbe.Proofs.Json.Tokens

/-!
# What lexemes are read as

Digits that 64 bits hold are all gathered, so a whole number that they hold is read as itself, signed
or not (`Literal.toNumber_of_fits`).

A whole number that they do not hold goes through the doubles. One just below the signed range is
rounded once (`Literal.toNumber_of_below`); with more digits than 64 bits hold it stays away from
that range, although digits are dropped and a product is rounded (`Literal.exists_far_of_le`).
-/

namespace LatencyProbe.Json

theorem digits_toDigits (n : Nat) : Digits (Nat.toDigits 10 n) := by
  refine ⟨Nat.toDigits_ne_nil, ?_⟩
  intro c hc
  exact Nat.isDigit_of_mem_toDigits (by decide) (by decide) hc

theorem mul_pow_le_ofDigitChars (ds : List Char) (n : Nat) :
    n * 10 ^ ds.length ≤ Nat.ofDigitChars 10 ds n := by
  rw [Nat.ofDigitChars_eq_ofDigitChars_zero, Nat.mul_comm]
  exact Nat.le_add_right _ _

theorem le_ofDigitChars (ds : List Char) (n : Nat) : n ≤ Nat.ofDigitChars 10 ds n :=
  (Nat.le_mul_of_pos_right n (Nat.pow_pos (by decide))).trans (mul_pow_le_ofDigitChars ds n)

theorem ofDigitChars_lt {ds : List Char} (h : ∀ c ∈ ds, c.isDigit) (n : Nat) :
    Nat.ofDigitChars 10 ds n < (n + 1) * 10 ^ ds.length := by
  induction ds generalizing n with
  | nil => simp
  | cons d ds ih =>
      have hd := (Char.isDigit_iff_toNat.mp (h d (List.mem_cons_self ..))).2
      have hle : 10 * n + (d.toNat - '0'.toNat) + 1 ≤ (n + 1) * 10 := by
        rw [show '9'.toNat = 57 from rfl] at hd
        rw [show '0'.toNat = 48 from rfl]
        omega
      rw [Nat.ofDigitChars_cons]
      calc Nat.ofDigitChars 10 ds (10 * n + (d.toNat - '0'.toNat))
          < (10 * n + (d.toNat - '0'.toNat) + 1) * 10 ^ ds.length :=
            ih (fun c hc => h c (List.mem_cons_of_mem d hc)) _
        _ ≤ (n + 1) * 10 * 10 ^ ds.length := Nat.mul_le_mul_right _ hle
        _ = (n + 1) * 10 ^ (d :: ds).length := by rw [List.length_cons, Nat.pow_succ']; ring

/-- Digits whose number stays below the bound are all gathered. -/
theorem gather_of_lt {bound n : Nat} {ds : List Char} (h : Nat.ofDigitChars 10 ds n < bound) :
    gather bound n ds = (Nat.ofDigitChars 10 ds n, []) := by
  induction ds generalizing n with
  | nil => simp [gather]
  | cons d ds ih =>
      rw [Nat.ofDigitChars_cons, Nat.mul_comm] at h ⊢
      rw [gather, if_pos (Nat.lt_of_le_of_lt (le_ofDigitChars ds _) h), ih h]

/-- Digits whose number reaches the bound are not all gathered, and those that are come as close to
it as one more digit would. -/
theorem gather_of_le {bound n : Nat} {ds : List Char} (hds : ∀ c ∈ ds, c.isDigit) (hn : n < bound)
    (h : bound ≤ Nat.ofDigitChars 10 ds n) :
    bound ≤ (gather bound n ds).1 * 10 + 9 ∧ (gather bound n ds).2 ≠ [] := by
  induction ds generalizing n with
  | nil => exact absurd hn (Nat.not_lt.mpr h)
  | cons d ds ih =>
      obtain ⟨hd, hrest⟩ := List.forall_mem_cons.mp hds
      rw [gather]
      split
      · next hlt =>
        rw [Nat.ofDigitChars_cons, Nat.mul_comm] at h
        exact ih hrest hlt h
      · next hge =>
        have hnine := (Char.isDigit_iff_toNat.mp hd).2
        rw [show '9'.toNat = 57 from rfl] at hnine
        rw [show '0'.toNat = 48 from rfl] at hge
        exact ⟨by omega, List.cons_ne_nil d ds⟩

theorem toNat_sub_pos {d : Char} (hd : d.isDigit) (hzero : d ≠ '0') :
    0 < d.toNat - '0'.toNat ∧ d.toNat - '0'.toNat < 10 := by
  obtain ⟨hlow, hhigh⟩ := Char.isDigit_iff_toNat.mp hd
  have hne : d.toNat ≠ '0'.toNat := fun h => hzero (Char.toNat_inj.mp h)
  rw [show '9'.toNat = 57 from rfl] at hhigh
  rw [show '0'.toNat = 48 from rfl] at *
  omega

/-- Digits that do not begin with a zero say how great their number is. -/
theorem pow_le_ofDigitChars {d : Char} {ds : List Char} (hd : d.isDigit) (hzero : d ≠ '0') :
    10 ^ ds.length ≤ Nat.ofDigitChars 10 (d :: ds) 0 := by
  have hpos := (toNat_sub_pos hd hzero).1
  rw [Nat.ofDigitChars_cons, Nat.mul_zero, Nat.zero_add]
  exact (Nat.le_mul_of_pos_left _ hpos).trans (mul_pow_le_ofDigitChars ds _)

theorem head?_toDigits {n : Nat} (hn : 0 < n) : (Nat.toDigits 10 n).head? ≠ some '0' := by
  intro h
  obtain ⟨ds, hds⟩ := List.head?_eq_some_iff.mp h
  have hlow := (Double.pow_le_and_lt_of_length hn (k := ds.length) (by rw [hds]; rfl)).1
  have hdigits := (digits_toDigits n).2
  have hvalue : Nat.ofDigitChars 10 ds 0 = n := by
    have := Nat.ofDigitChars_ten_toDigits (n := n)
    rwa [hds] at this
  rw [hds] at hdigits
  have := ofDigitChars_lt (fun c hc => hdigits c (List.mem_cons_of_mem _ hc)) 0
  omega

theorem digits_zero : Digits ['0'] :=
  ⟨List.cons_ne_nil _ _, List.forall_mem_singleton.mpr rfl⟩

theorem WholeDigits.isDigits {ds : List Char} (h : WholeDigits ds) : Digits ds := by
  cases h with
  | zero => exact digits_zero
  | digits _ h => exact h

theorem wholeDigits_of_head? {ds : List Char} (h : Digits ds) (hzero : ds.head? ≠ some '0') :
    WholeDigits ds := by
  cases ds with
  | nil => exact absurd rfl h.1
  | cons d ds => exact .digits (fun hd => hzero (congrArg some hd)) h

theorem wholeDigits_toDigits (n : Nat) : WholeDigits (Nat.toDigits 10 n) := by
  rcases Nat.eq_zero_or_pos n with rfl | hn
  · exact .zero
  · exact wholeDigits_of_head? (digits_toDigits n) (head?_toDigits hn)

section Doubles

variable {l : Lexeme}

/-- Digits that fit are all part of the significand. -/
theorem significand_of_lt
    (h : Nat.ofDigitChars 10 (l.whole ++ l.fraction) 0 < 0x10000000000000000) :
    l.significand.1 = Nat.ofDigitChars 10 (l.whole ++ l.fraction) 0 ∧
      l.places = -(l.fraction.length : Int) := by
  rw [Nat.ofDigitChars_append] at h ⊢
  have hwhole : l.wholePart = (Nat.ofDigitChars 10 l.whole 0, []) :=
    gather_of_lt (Nat.lt_of_le_of_lt (le_ofDigitChars _ _) h)
  have hall : l.significand =
      (Nat.ofDigitChars 10 l.fraction (Nat.ofDigitChars 10 l.whole 0), []) := by
    rw [Lexeme.significand, hwhole, gather_of_lt h]
  refine ⟨by rw [hall], ?_⟩
  rw [Lexeme.places, hwhole, hall]
  simp

theorem scaled?_of_scale {e : Int} {m : Nat} (hlt : m < Double.limit)
    (h : Double.scale (Double.nearest (l.significand.1 * Double.perOne) 1) e = some m) :
    l.scaled? e = some ⟨l.negative, m, hlt⟩ := by
  rw [Lexeme.scaled?]
  rw [h]
  exact dif_pos hlt

theorem exists_scaled?_of_neg (h : l.significand.1 < 0x10000000000000000) {e : Int} (he : e < 0) :
    ∃ x, l.scaled? e = some x := by
  obtain ⟨k, rfl⟩ := Int.eq_negSucc_of_lt_zero he
  obtain ⟨m, hm, hle⟩ :=
    Double.scale_negSucc (Double.nearest (l.significand.1 * Double.perOne) 1) k
  exact ⟨_, scaled?_of_scale (Nat.lt_of_le_of_lt hle (Double.nearest_whole_lt_limit h)) hm⟩

theorem exists_scaled?_of_product {k : Nat} (hk : k ≤ 308)
    (h : Double.product (Double.nearest (l.significand.1 * Double.perOne) 1)
      (Double.powerOfTen k) < Double.limit) :
    ∃ x, l.scaled? (k : Int) = some x :=
  ⟨_, scaled?_of_scale h (Double.scale_natCast hk h)⟩

theorem toDouble_of_scaled? {x : Double.Finite} (hexponent : l.exponent = none)
    (h : l.scaled? l.places = some x) : l.toDouble = .ok x := by
  rw [Lexeme.toDouble]
  rw [hexponent]
  dsimp only
  rw [h]
  rfl

theorem scale_of_toDouble {x : Double.Finite} (hexponent : l.exponent = none)
    (h : l.toDouble = .ok x) :
    Double.scale (Double.nearest (l.significand.1 * Double.perOne) 1) l.places =
      some x.magnitude := by
  rw [Lexeme.toDouble] at h
  rw [hexponent] at h
  dsimp only at h
  cases hscaled : l.scaled? l.places with
  | none =>
      rw [hscaled] at h
      cases h
  | some y =>
      rw [hscaled] at h
      cases h
      obtain ⟨m, hm, hmagnitude⟩ := Option.bind_eq_some_iff.mp hscaled
      rw [hm, Double.magnitude_of_ofMagnitude? hmagnitude]

end Doubles

/-- The sign of a number as it is written. -/
def sign (negative : Bool) : List Char := if negative then ['-'] else []

theorem numberText_sign {whole fractionText exponentText fraction : List Char}
    {exponent : Option Lexeme.Exponent} (negative : Bool) (hwhole : WholeDigits whole)
    (hfraction : FractionText fractionText fraction)
    (hexponent : ExponentText exponentText exponent) :
    NumberText (sign negative ++ (whole ++ (fractionText ++ exponentText)))
      ⟨negative, whole, fraction, exponent⟩ := by
  cases negative with
  | false => exact .positive hwhole hfraction hexponent
  | true => exact .negative hwhole hfraction hexponent

/-- A number without point and exponent. -/
structure Literal where
  negative : Bool
  digits : List Char
  wholeDigits : WholeDigits digits

namespace Literal

/-- The number that the digits are. -/
def magnitude (l : Literal) : Nat := Nat.ofDigitChars 10 l.digits 0

/-- The whole number that a literal denotes. -/
def value (l : Literal) : Int := if l.negative then -(l.magnitude : Int) else l.magnitude

/-- A literal among the numbers of any form. -/
def lexeme (l : Literal) : Lexeme := ⟨l.negative, l.digits, [], none⟩

/-- The characters of a literal. -/
def text (l : Literal) : List Char := sign l.negative ++ l.digits

/-- The literal that is printed for a whole number. -/
def ofInt (n : Int) : Literal :=
  ⟨decide (n < 0), Nat.toDigits 10 n.natAbs, wholeDigits_toDigits n.natAbs⟩

theorem numberText (l : Literal) : NumberText l.text l.lexeme := by
  have h := numberText_sign l.negative l.wholeDigits .none .none
  rwa [List.append_nil, List.append_nil] at h

theorem value_ofInt (n : Int) : (ofInt n).value = n := by
  simp only [value, magnitude, ofInt, Nat.ofDigitChars_ten_toDigits, decide_eq_true_eq]
  split <;> omega

theorem text_ofInt (n : Int) : (ofInt n).text = Text.decimal n := by
  cases n with
  | ofNat n => simp [text, ofInt, sign, Text.decimal]
  | negSucc n => simp [text, ofInt, sign, Text.decimal]

theorem natAbs_value (l : Literal) : l.value.natAbs = l.magnitude := by
  rw [value]
  split <;> omega

theorem value_of_negative {l : Literal} (h : l.negative = true) : l.value = -l.magnitude := by
  rw [value, if_pos h]

theorem value_of_positive {l : Literal} (h : l.negative = false) : l.value = l.magnitude := by
  rw [value, h]
  rfl

variable {l : Literal}

theorem negative_of_value_neg (h : l.value < 0) : l.negative = true := by
  cases hsign : l.negative with
  | true => rfl
  | false =>
      have hvalue := value_of_positive hsign
      omega

theorem wholePart_of_lt (h : l.magnitude < 2 ^ 64) : l.lexeme.wholePart = (l.magnitude, []) :=
  gather_of_lt h

theorem wholePart_of_le (h : 2 ^ 64 ≤ l.magnitude) :
    2 ^ 64 ≤ l.lexeme.wholePart.1 * 10 + 9 ∧ l.lexeme.wholePart.2 ≠ [] := by
  have hbound : (0x10000000000000000 : Nat) = 2 ^ 64 := by decide
  rw [Lexeme.wholePart, hbound]
  exact gather_of_le l.wholeDigits.isDigits.2 (Nat.two_pow_pos 64) h

/-- Nothing keeps a literal whose digits fit from being a whole number but its sign. -/
theorem gathered_of_lt (h : l.magnitude < 2 ^ 64) :
    l.lexeme.fraction.isEmpty ∧ l.lexeme.exponent.isNone ∧ l.lexeme.wholePart.2.isEmpty := by
  rw [wholePart_of_lt h]
  exact ⟨rfl, rfl, rfl⟩

/-- A literal that 64 bits hold is read as the number that it is. No negative one is a zero. -/
theorem toNumber_of_fits (hlow : -2 ^ 63 ≤ l.value) (hhigh : l.value < 2 ^ 64)
    (hzero : l.negative → l.value < 0) :
    l.lexeme.toNumber = .ok (.integer l.value ⟨hlow, hhigh⟩) := by
  have habs := l.natAbs_value
  have hmagnitude : l.magnitude < 2 ^ 64 := by omega
  have hpart := wholePart_of_lt hmagnitude
  rw [Lexeme.toNumber, if_pos (gathered_of_lt hmagnitude)]
  cases hsign : l.negative with
  | false =>
      have hvalue := value_of_positive hsign
      have hlt : l.lexeme.wholePart.1 < 0x10000000000000000 := by
        rw [hpart]
        exact hmagnitude
      rw [if_pos (by simp [lexeme, hsign]), dif_pos hlt]
      simp [hpart, hvalue]
  | true =>
      have hvalue := value_of_negative hsign
      have hneg := hzero hsign
      have hle : 0 < l.lexeme.wholePart.1 ∧ l.lexeme.wholePart.1 ≤ 0x8000000000000000 := by
        rw [hpart]
        omega
      rw [if_neg (by simp [lexeme, hsign]), dif_pos hle]
      simp [hpart, hvalue]

/-- A minus zero is a double, and so is a literal below the signed range. Both are rounded once. -/
theorem toNumber_of_below (hsign : l.negative = true) (hlt : l.magnitude < 2 ^ 64)
    (h : l.magnitude = 0 ∨ 2 ^ 63 < l.magnitude) :
    l.lexeme.toNumber = .ok (.float (.ofNat true l.magnitude hlt)) := by
  have hpart := wholePart_of_lt hlt
  have hrange : ¬(0 < l.lexeme.wholePart.1 ∧ l.lexeme.wholePart.1 ≤ 0x8000000000000000) := by
    rw [hpart]
    omega
  have hsignificand : l.lexeme.significand.1 = l.magnitude := by
    rw [Lexeme.significand, hpart]
    rfl
  have hplaces : l.lexeme.places = (0 : Nat) := by
    rw [Lexeme.places, Lexeme.significand, hpart]
    rfl
  have hfinite := Double.nearest_whole_lt_limit hlt
  have hproduct := Double.product_powerOfTen_zero (Double.nearest (l.magnitude * Double.perOne) 1)
  have hscale : Double.scale (Double.nearest (l.magnitude * Double.perOne) 1) (0 : Nat) =
      some (Double.nearest (l.magnitude * Double.perOne) 1) := by
    rw [Double.scale_natCast (Nat.zero_le 308) (hproduct.symm ▸ hfinite), hproduct]
  have hscaled : l.lexeme.scaled? l.lexeme.places = some (.ofNat true l.magnitude hlt) := by
    rw [← hsignificand] at hscale
    rw [hplaces, scaled?_of_scale (hsignificand ▸ hfinite) hscale]
    simp only [Double.Finite.ofNat, Option.some.injEq, Double.Finite.mk.injEq]
    exact ⟨hsign, by rw [hsignificand]⟩
  rw [Lexeme.toNumber, if_pos (gathered_of_lt hlt), if_neg (by simp [lexeme, hsign]),
    dif_neg hrange, toDouble_of_scaled? rfl hscaled]
  rfl

/-- A literal with more digits than 64 bits hold is a double, and none that is near to what the
signed range holds. -/
theorem exists_far_of_le (hle : 2 ^ 64 ≤ l.magnitude) {n : Number} (h : l.lexeme.toNumber = .ok n) :
    ∃ x, n = .float x ∧ (2 ^ 63 + 2 ^ 11) * Double.perOne ≤ x.units := by
  obtain ⟨hclose, hleft⟩ := wholePart_of_le hle
  have hover : ¬(l.lexeme.fraction.isEmpty ∧ l.lexeme.exponent.isNone ∧
      l.lexeme.wholePart.2.isEmpty) := by simp [hleft]
  rw [Lexeme.toNumber, if_neg hover] at h
  cases hx : l.lexeme.toDouble with
  | error unread =>
      rw [hx] at h
      cases h
  | ok x =>
      rw [hx] at h
      cases h
      have hplaces : l.lexeme.places = (l.lexeme.wholePart.2.length : Int) := by
        rw [Lexeme.places, Lexeme.significand]
        simp [lexeme, gather]
      have hscale := scale_of_toDouble rfl hx
      rw [hplaces] at hscale
      have hsignificand : 1844674407370955161 ≤ l.lexeme.significand.1 := by
        change 1844674407370955161 ≤ l.lexeme.wholePart.1
        omega
      have hpower : Double.powerOfTen 1 ≤ Double.powerOfTen l.lexeme.wholePart.2.length :=
        Double.powerOfTen_mono (List.length_pos_iff.mpr hleft)
      have hnearest := Double.nearest_mono Nat.one_pos
        (Nat.mul_le_mul_right Double.perOne hsignificand)
      have hpos : 0 < Double.nearest (1844674407370955161 * Double.perOne) 1 := by decide +kernel
      refine ⟨x, rfl, ?_⟩
      -- The digits that are kept and the power for those that are dropped are both at their least.
      calc (2 ^ 63 + 2 ^ 11) * Double.perOne
          ≤ Double.units (Double.product
              (Double.nearest (1844674407370955161 * Double.perOne) 1) (Double.powerOfTen 1)) := by
            decide +kernel
        _ ≤ Double.units (Double.product (Double.nearest (l.lexeme.significand.1 * Double.perOne) 1)
              (Double.powerOfTen l.lexeme.wholePart.2.length)) :=
            Double.units_le_units (Double.product_mono hnearest hpower)
        _ = x.units := by
            rw [← Double.product_of_scale (hpos.trans_le hnearest).ne' hscale, Double.Finite.units]

end Literal
end LatencyProbe.Json
