import LatencyProbe.Json.Printer
import LatencyProbe.Proofs.Json.Lexemes

/-!
# Numbers are read back

Every number that is printed is read: a whole number as itself, a double as some double, for the
reader rounds more than once. `Number.reread` says as which. That a double is read at all takes
more than its spelling, since the roundings of the reader could carry it out of range.
-/

namespace LatencyProbe

namespace Json

/-- Digits as they are printed for a double. -/
structure Significant (ds : List Char) : Prop where
  digits : Digits ds
  first : ds.head? ≠ some '0'
  length_le : ds.length ≤ 17

theorem toDigits_eq_digits_append (d : Double.Decimal) :
    ∃ z, Nat.toDigits 10 d.coefficient = d.digits ++ List.replicate z '0' := by
  refine ⟨((Nat.toDigits 10 d.coefficient).reverse.takeWhile (· == '0')).length, ?_⟩
  have hzeros : (Nat.toDigits 10 d.coefficient).reverse.takeWhile (· == '0') =
      List.replicate ((Nat.toDigits 10 d.coefficient).reverse.takeWhile (· == '0')).length '0' := by
    refine List.eq_replicate_iff.mpr ⟨rfl, ?_⟩
    intro c hc
    simpa using List.all_eq_true.mp List.all_takeWhile c hc
  have hsplit := congrArg List.reverse
    (List.takeWhile_append_dropWhile (p := (· == '0'))
      (l := (Nat.toDigits 10 d.coefficient).reverse))
  rw [List.reverse_append, List.reverse_reverse, hzeros, List.reverse_replicate] at hsplit
  exact hsplit.symm

/-- Without its zeros a coefficient does not end in one. -/
theorem ofDigitChars_digits_mod {d : Double.Decimal} (h : d.digits ≠ []) :
    Nat.ofDigitChars 10 d.digits 0 % 10 ≠ 0 := by
  have hne : (Nat.toDigits 10 d.coefficient).reverse.dropWhile (· == '0') ≠ [] := by
    intro hnil
    exact h (by rw [Double.Decimal.digits, hnil, List.reverse_nil])
  obtain ⟨x, more, hx⟩ := List.exists_cons_of_ne_nil hne
  have hlast := List.head?_dropWhile_not (· == '0') (Nat.toDigits 10 d.coefficient).reverse
  rw [hx] at hlast
  have hzero : x ≠ '0' := by simpa using hlast
  have hmem : x ∈ Nat.toDigits 10 d.coefficient := by
    rw [← List.mem_reverse]
    exact List.dropWhile_sublist _ |>.subset (hx ▸ List.mem_cons_self ..)
  obtain ⟨hpos, hlt⟩ := toNat_sub_pos ((digits_toDigits _).2 x hmem) hzero
  rw [Double.Decimal.digits, hx, List.reverse_cons, Nat.ofDigitChars_append, Nat.ofDigitChars_cons,
    Nat.ofDigitChars_nil]
  omega

/-- The digits that are printed for a magnitude, and the zeros that are not. -/
theorem significant_digits_shortest {m : Nat} (hm : 0 < m) :
    Significant (Double.shortest m).digits ∧
      ∃ z : Nat, Nat.ofDigitChars 10 (Double.shortest m).digits 0 * 10 ^ z =
          (Double.shortest m).coefficient ∧
        (Double.shortest m).leading =
          (Double.shortest m).exponent + z + ((Double.shortest m).digits.length - 1 : Int) ∧
        Nat.ofDigitChars 10 (Double.shortest m).digits 0 < 10 ^ 17 := by
  obtain ⟨n, c, hn, hshortest, hpos, hle, -⟩ := Double.shortest_spec hm
  rw [hshortest]
  generalize hd : (⟨c, _⟩ : Double.Decimal) = d
  obtain rfl : d.coefficient = c := by rw [← hd]
  clear hd hshortest
  obtain ⟨z, hz⟩ := toDigits_eq_digits_append d
  have hvalue : Nat.ofDigitChars 10 d.digits 0 * 10 ^ z = d.coefficient := by
    have := Nat.ofDigitChars_ten_toDigits (n := d.coefficient)
    rwa [hz, Nat.ofDigitChars_append, Nat.ofDigitChars_replicate_zero, Nat.mul_comm] at this
  have hne : d.digits ≠ [] := by
    intro hnil
    rw [hnil, Nat.ofDigitChars_nil, Nat.zero_mul] at hvalue
    omega
  have hdigits : Digits d.digits := by
    refine ⟨hne, fun x hx => (digits_toDigits d.coefficient).2 x ?_⟩
    rw [hz]
    exact List.mem_append_left _ hx
  have hfirst : d.digits.head? ≠ some '0' := by
    have := head?_toDigits hpos
    rwa [hz, List.head?_append_of_ne_nil _ hne] at this
  have hsmall : Nat.ofDigitChars 10 d.digits 0 < 10 ^ 17 := by
    have hmod := ofDigitChars_digits_mod hne
    have hbound : 10 ^ (n + 1) ≤ 10 ^ 17 := Nat.pow_le_pow_right (by decide) (by omega)
    have := Nat.le_mul_of_pos_right (Nat.ofDigitChars 10 d.digits 0)
      (Nat.pow_pos (n := z) (by decide : 0 < 10))
    omega
  have hlength : d.digits.length ≤ 17 := by
    obtain ⟨x, more, hx⟩ := List.exists_cons_of_ne_nil hne
    rw [hx] at hdigits hfirst hsmall ⊢
    have hx' : x ≠ '0' := fun h => hfirst (congrArg some h)
    have hlow : 10 ^ more.length ≤ _ :=
      pow_le_ofDigitChars (hdigits.2 x (List.mem_cons_self ..)) hx'
    have := (Nat.pow_lt_pow_iff_right (by decide)).mp (Nat.lt_of_le_of_lt hlow hsmall)
    rw [List.length_cons]
    omega
  refine ⟨⟨hdigits, hfirst, hlength⟩, z, hvalue, ?_, hsmall⟩
  rw [Double.Decimal.leading, hz, List.length_append, List.length_replicate]
  push_cast
  ring

section Meaning

variable {l : Lexeme}

/-- A number with a point and no exponent is a double. -/
theorem toNumber_of_fraction (hfraction : l.fraction ≠ []) (hexponent : l.exponent = none)
    (hlt : Nat.ofDigitChars 10 (l.whole ++ l.fraction) 0 < 0x10000000000000000) :
    ∃ x, l.toNumber = .ok (.float x) := by
  obtain ⟨hsignificand, hplaces⟩ := significand_of_lt hlt
  have hpos := List.length_pos_iff.mpr hfraction
  obtain ⟨x, hx⟩ := exists_scaled?_of_neg (l := l) (e := l.places) (hsignificand ▸ hlt) (by omega)
  refine ⟨x, ?_⟩
  simp [Lexeme.toNumber, Lexeme.toDouble, hfraction, hexponent, hx]

/-- A number with an exponent is a double, if it is in range. -/
theorem toNumber_of_exponent {negative : Bool} {k : Nat} {x : Double.Finite}
    (hexponent : l.exponent = some ⟨negative, Nat.toDigits 10 k⟩) (hk : k < 0x80000000)
    (h : l.scaled? (l.places + if negative then -(k : Int) else k) = some x) :
    l.toNumber = .ok (.float x) := by
  have hgather : gather 0x80000000 0 (Nat.toDigits 10 k) = (k, []) := by
    have hvalue := Nat.ofDigitChars_ten_toDigits (n := k)
    rw [gather_of_lt (hvalue.symm ▸ hk), hvalue]
  simp [Lexeme.toNumber, Lexeme.toDouble, hexponent, hgather, h]

end Meaning

/-- A text is read as a double. -/
def IsDouble (text : List Char) : Prop :=
  ∃ l x, NumberText text l ∧ l.toNumber = .ok (.float x)

theorem isDouble_of_fraction {whole fraction : List Char} (negative : Bool)
    (hwhole : WholeDigits whole) (hfraction : Digits fraction)
    (hlt : Nat.ofDigitChars 10 (whole ++ fraction) 0 < 0x10000000000000000) :
    IsDouble (sign negative ++ (whole ++ '.' :: fraction)) := by
  have htext := numberText_sign negative hwhole (.some hfraction) .none
  rw [List.append_nil] at htext
  obtain ⟨x, hx⟩ :=
    toNumber_of_fraction (l := ⟨negative, whole, fraction, none⟩) hfraction.1 rfl hlt
  exact ⟨_, x, htext, hx⟩

theorem isDouble_zero (negative : Bool) : IsDouble (sign negative ++ magnitudeText 0) :=
  isDouble_of_fraction negative .zero digits_zero (by decide)

/-- Seventeen digits fit 64 bits. -/
theorem ofDigitChars_lt_of_length {ds : List Char} (h : ∀ c ∈ ds, c.isDigit)
    (hlength : ds.length ≤ 17) : Nat.ofDigitChars 10 ds 0 < 0x10000000000000000 := by
  have hpow : 10 ^ ds.length ≤ 10 ^ 17 := Nat.pow_le_pow_right (by decide) hlength
  have := ofDigitChars_lt h 0
  omega

theorem isDigit_of_mem_replicate {c : Char} {n : Nat} (h : c ∈ List.replicate n '0') :
    c.isDigit := by
  rw [List.eq_of_mem_replicate h]
  rfl

theorem isDouble_positional {ds : List Char} {e : Int} (negative : Bool) (h : Significant ds)
    (he : e ≤ 15) : IsDouble (sign negative ++ positional ds e) := by
  obtain ⟨⟨hne, hdigits⟩, hfirst, hlength⟩ := h
  rw [positional]
  split
  · refine isDouble_of_fraction negative .zero ⟨by simp [hne], ?_⟩ ?_
    · intro c hc
      exact (List.mem_append.mp hc).elim isDigit_of_mem_replicate (hdigits c)
    · simpa [Nat.ofDigitChars_cons, Nat.ofDigitChars_append] using
        ofDigitChars_lt_of_length hdigits hlength
  · next hneg =>
    obtain ⟨d, rest, rfl⟩ := List.exists_cons_of_ne_nil hne
    obtain ⟨n, rfl⟩ : ∃ n : Nat, e = n := ⟨e.toNat, by omega⟩
    have hwhole : WholeDigits ((d :: rest).take (n + 1) ++
        List.replicate (n + 1 - (d :: rest).length) '0') := by
      refine wholeDigits_of_head? ⟨by simp, ?_⟩ (by simpa using hfirst)
      intro c hc
      exact (List.mem_append.mp hc).elim (fun hc => hdigits c (List.mem_of_mem_take hc))
        isDigit_of_mem_replicate
    have hfraction : Digits (if ((d :: rest).drop (n + 1)).isEmpty then ['0']
        else (d :: rest).drop (n + 1)) := by
      split
      · exact digits_zero
      · next hempty =>
        exact ⟨by simpa using hempty, fun c hc => hdigits c (List.mem_of_mem_drop hc)⟩
    apply isDouble_of_fraction negative hwhole hfraction
    refine ofDigitChars_lt_of_length ?_ ?_
    · intro c hc
      exact (List.mem_append.mp hc).elim (hwhole.isDigits.2 c) (hfraction.2 c)
    · simp only [List.length_append, List.length_take, List.length_replicate]
      split
      · simp only [List.length_singleton]
        omega
      · rw [List.length_drop]
        omega

theorem isDouble_scientific {ds : List Char} {e : Int} (negative : Bool) (h : Significant ds)
    (hsize : e.natAbs < 0x80000000)
    (hrange : ∀ k : Nat, e - (ds.length - 1 : Int) = k → k ≤ 308 ∧
      Double.product (Double.nearest (Nat.ofDigitChars 10 ds 0 * Double.perOne) 1)
        (Double.powerOfTen k) < Double.limit) :
    IsDouble (sign negative ++ scientific ds e) := by
  obtain ⟨⟨hne, hdigits⟩, hfirst, hlength⟩ := h
  obtain ⟨d, rest, rfl⟩ := List.exists_cons_of_ne_nil hne
  have hwhole : WholeDigits [d] :=
    wholeDigits_of_head? ⟨by simp, fun c hc => hdigits c (List.mem_cons.mpr
      (.inl (List.mem_singleton.mp hc)))⟩ (by simpa using hfirst)
  have hfraction : FractionText (if rest.isEmpty then [] else '.' :: rest) rest := by
    cases rest with
    | nil => exact .none
    | cons c rest => exact .some ⟨by simp, fun x hx => hdigits x (List.mem_cons_of_mem d hx)⟩
  have hexponent : ExponentText ('e' :: (if e < 0 then '-' else '+') :: Nat.toDigits 10 e.natAbs)
      (some ⟨decide (e < 0), Nat.toDigits 10 e.natAbs⟩) := by
    by_cases hneg : e < 0
    · simpa [hneg] using ExponentText.minus (.inl rfl) (digits_toDigits e.natAbs)
    · simpa [hneg] using ExponentText.plus (.inl rfl) (digits_toDigits e.natAbs)
  have htext := numberText_sign negative hwhole hfraction hexponent
  generalize hl : Lexeme.mk negative [d] rest _ = l at htext
  have hall : l.whole ++ l.fraction = d :: rest := by rw [← hl]; rfl
  have hlt : Nat.ofDigitChars 10 (l.whole ++ l.fraction) 0 < 0x10000000000000000 := by
    rw [hall]
    exact ofDigitChars_lt_of_length hdigits hlength
  obtain ⟨hsignificand, hplaces⟩ := significand_of_lt hlt
  have hexp : l.exponent = some ⟨decide (e < 0), Nat.toDigits 10 e.natAbs⟩ := by rw [← hl]
  have hshift : (l.places + if decide (e < 0) then -(e.natAbs : Int) else e.natAbs) =
      e - ((d :: rest).length - 1 : Int) := by
    rw [hplaces, ← hl, List.length_cons]
    by_cases hneg : e < 0
    · simp only [hneg, decide_true, if_true]
      omega
    · simp only [hneg, decide_false, Bool.false_eq_true, if_false]
      omega
  have hscaled : ∃ x, l.scaled? (e - ((d :: rest).length - 1 : Int)) = some x := by
    by_cases hneg : e - ((d :: rest).length - 1 : Int) < 0
    · exact exists_scaled?_of_neg (hsignificand ▸ hlt) hneg
    · obtain ⟨k, hk⟩ := Int.eq_ofNat_of_zero_le (Int.not_lt.mp hneg)
      obtain ⟨hle, hproduct⟩ := hrange k hk
      rw [hk]
      refine exists_scaled?_of_product hle ?_
      rwa [hsignificand, hall]
  obtain ⟨x, hx⟩ := hscaled
  refine ⟨l, x, ?_, toNumber_of_exponent hexp hsize (hshift ▸ hx)⟩
  simpa [scientific] using htext

theorem natAbs_leading_shortest_lt {m : Nat} (hm : 0 < m) (hlt : m < Double.limit) :
    (Double.shortest m).leading.natAbs < 0x80000000 := by
  obtain ⟨n, c, hn, hshortest, -, hle, -⟩ := Double.shortest_spec hm
  obtain ⟨hlow, hhigh⟩ := Double.leadingExponent_bounds hm hlt
  have hlength : (Nat.toDigits 10 c).length ≤ 18 := by
    apply (Nat.length_toDigits_le_iff (by decide) (by decide)).mpr
    have : 10 ^ (n + 1) ≤ 10 ^ 17 := Nat.pow_le_pow_right (by decide) (by omega)
    omega
  have hpos := Nat.length_toDigits_pos (b := 10) (n := c)
  rw [hshortest, Double.Decimal.leading]
  dsimp only
  omega

/-- What is printed for a double is read as a double. -/
theorem isDouble_magnitudeText {m : Nat} (negative : Bool) (hlt : m < Double.limit) :
    IsDouble (sign negative ++ magnitudeText m) := by
  rcases Nat.eq_zero_or_pos m with rfl | hm
  · exact isDouble_zero negative
  · obtain ⟨hdigits, z, hvalue, hleading, hsmall⟩ := significant_digits_shortest hm
    rw [magnitudeText]
    rw [if_neg hm.ne']
    dsimp only
    split
    · next h => exact isDouble_positional negative hdigits h.2
    · apply isDouble_scientific negative hdigits (natAbs_leading_shortest_lt hm hlt)
      intro k hk
      have hshortest : Double.shortest m =
          ⟨(Double.shortest m).coefficient, (Double.shortest m).exponent⟩ := rfl
      exact Double.product_shortest_lt hm hlt hshortest hvalue (by omega) hsmall

/-- The number that the text of a number is read as. -/
def Number.reread (n : Number) : Number :=
  match Scan.number n.text with
  | .ok (m, _) => m
  | .error _ => n

theorem reread_of_text {n m : Number} {l : Lexeme} (htext : NumberText n.text l)
    (hm : l.toNumber = .ok m) : n.reread = m := by
  have h := Scan.number_append htext hm Ends.nil
  rw [List.append_nil] at h
  rw [Number.reread, h]

/-- A whole number is read back as itself. -/
theorem exists_lexeme_integer (n : Int)
    (bounds : -0x8000000000000000 ≤ n ∧ n < 0x10000000000000000) :
    ∃ l, NumberText (Number.integer n bounds).text l ∧ l.toNumber = .ok (.integer n bounds) := by
  have htext := (Literal.ofInt n).numberText
  have hvalue := Literal.value_ofInt n
  have hzero : (Literal.ofInt n).negative → (Literal.ofInt n).value < 0 := by
    rw [hvalue]
    exact of_decide_eq_true
  rw [Literal.text_ofInt] at htext
  refine ⟨_, htext, ?_⟩
  rw [Literal.toNumber_of_fits (hvalue.symm ▸ bounds.1) (hvalue.symm ▸ bounds.2) hzero]
  simp only [hvalue]

@[simp] theorem reread_integer (n : Int) (bounds) :
    (Number.integer n bounds).reread = .integer n bounds := by
  obtain ⟨l, htext, hl⟩ := exists_lexeme_integer n bounds
  exact reread_of_text htext hl

/-- Every number that is printed is read. -/
theorem exists_lexeme (n : Number) : ∃ l, NumberText n.text l ∧ l.toNumber = .ok n.reread := by
  cases n with
  | integer n bounds =>
      rw [reread_integer]
      exact exists_lexeme_integer n bounds
  | float x =>
      obtain ⟨l, y, htext, hl⟩ := isDouble_magnitudeText x.negative x.magnitude_lt
      have htext' : NumberText (Number.float x).text l := htext
      exact ⟨l, htext', by rw [reread_of_text htext' hl, hl]⟩

/-- A character that is neither a blank nor a control character, and no letter of other scripts. -/
def Visible (c : Char) : Prop := 0x20 < c.toNat ∧ c.toNat < 0x7F

theorem visible_of_mem_digits {ds : List Char} (h : Digits ds) : ∀ c ∈ ds, Visible c := by
  intro c hc
  obtain ⟨hlow, hhigh⟩ := Char.isDigit_iff_toNat.mp (h.2 c hc)
  exact ⟨Nat.lt_of_lt_of_le (by decide) hlow, Nat.lt_of_le_of_lt hhigh (by decide)⟩

theorem visible_of_mem_exponentText {text : List Char} {exponent : Option Lexeme.Exponent}
    (h : ExponentText text exponent) : ∀ c ∈ text, Visible c := by
  cases h with
  | none => simp
  | bare he hds | plus he hds | minus he hds =>
      have hdigits := visible_of_mem_digits hds
      rcases he with rfl | rfl <;> simpa [show Visible 'e' from ⟨by decide, by decide⟩,
        show Visible 'E' from ⟨by decide, by decide⟩, show Visible '+' from ⟨by decide, by decide⟩,
        show Visible '-' from ⟨by decide, by decide⟩] using hdigits

theorem visible_of_mem_fractionText {text ds : List Char} (h : FractionText text ds) :
    ∀ c ∈ text, Visible c := by
  cases h with
  | none => simp
  | some hds =>
      intro c hc
      cases hc with
      | head => exact ⟨by decide, by decide⟩
      | tail _ hc => exact visible_of_mem_digits hds c hc

/-- A number is written in visible characters. -/
theorem visible_of_mem_numberText {text : List Char} {l : Lexeme} (h : NumberText text l) :
    ∀ c ∈ text, Visible c := by
  have hparts {whole fractionText exponentText fraction : List Char}
      {exponent : Option Lexeme.Exponent} (hwhole : WholeDigits whole)
      (hfraction : FractionText fractionText fraction)
      (hexponent : ExponentText exponentText exponent) :
      ∀ c ∈ whole ++ (fractionText ++ exponentText), Visible c := by
    intro c hc
    simp only [List.mem_append] at hc
    rcases hc with hc | hc | hc
    · exact visible_of_mem_digits hwhole.isDigits c hc
    · exact visible_of_mem_fractionText hfraction c hc
    · exact visible_of_mem_exponentText hexponent c hc
  cases h with
  | positive hwhole hfraction hexponent => exact hparts hwhole hfraction hexponent
  | negative hwhole hfraction hexponent =>
      intro c hc
      cases hc with
      | head => exact ⟨by decide, by decide⟩
      | tail _ hc => exact hparts hwhole hfraction hexponent c hc

theorem numberText_ne_nil {text : List Char} {l : Lexeme} (h : NumberText text l) : text ≠ [] := by
  cases h with
  | positive hwhole _ _ => simp [hwhole.isDigits.1]
  | negative _ _ _ => simp

end Json

/-- A double that the reader of numbers gets back from its printed text. -/
def Double.ReadsBack : Double → Prop
  | .finite x => Json.Scan.number (Json.Number.float x).text = .ok (.float x, [])
  | _ => False

theorem Double.readsBack_finite {x : Double.Finite} :
    (Double.finite x).ReadsBack ↔ (Json.Number.float x).reread = .float x := by
  obtain ⟨l, htext, hl⟩ := Json.exists_lexeme (.float x)
  have hnumber := Json.Scan.number_append htext hl Json.Ends.nil
  rw [List.append_nil] at hnumber
  simp [ReadsBack, hnumber]

instance : DecidablePred Double.ReadsBack
  | .finite _ => decidable_of_iff' _ Double.readsBack_finite
  | .infinite _ => isFalse id
  | .nan => isFalse id

end LatencyProbe
