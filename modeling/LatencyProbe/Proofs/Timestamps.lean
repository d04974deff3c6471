import LatencyProbe.Proofs.Acceptance
import LatencyProbe.Proofs.Language

/-!
# Whole numbers as times

A time that is written as a whole number is read as that number, or not at all. The one exception
lies just below the signed range: a number there that is rounded to its lower end is read as that
end.
-/

namespace LatencyProbe

namespace Json

/-- A double that is a whole number at or below zero in the signed range is that time. -/
theorem toMillis?_of_units {x : Double.Finite} {k : Nat} (hsign : x.negative = true)
    (h : x.units = k * Double.perOne) (hk : k ≤ 2 ^ 63) :
    (Json.number (.float x)).toMillis? = some (Int64.ofInt (-k)) := by
  have hvalue : x.value = (-k : Int) := by
    rw [Double.Finite.value_eq_iff, if_pos hsign, Int.natAbs_neg, Int.natAbs_natCast]
    exact ⟨h, by omega⟩
  rw [toMillis?_number_eq_some_iff, Int64.toInt_ofInt_of_le (by omega) (by omega)]
  exact hvalue

/-- A double out of the signed range is no time. -/
theorem toMillis?_of_far {x : Double.Finite} (h : (2 ^ 63 + 2 ^ 11) * Double.perOne ≤ x.units) :
    (Json.number (.float x)).toMillis? = none := by
  rw [toMillis?_number_eq_none_iff]
  intro t ht
  rw [(Double.Finite.value_eq_iff.mp ht).1] at h
  have hfar := Nat.le_of_mul_le_mul_right h Double.perOne_pos
  have hlow := t.le_toInt
  have hhigh := t.toInt_lt
  omega

/-- An integer is the time that it is, and none if it is above the signed range. -/
theorem toMillis?_integer {m : Int}
    {bounds : -0x8000000000000000 ≤ m ∧ m < 0x10000000000000000} :
    (Json.number (.integer m bounds)).toMillis? =
      if m < 2 ^ 63 then some (Int64.ofInt m) else none := by
  split
  · next hm =>
    rw [toMillis?_number_eq_some_iff, Int64.toInt_ofInt_of_le bounds.1 hm]
    rfl
  · next hm =>
    rw [toMillis?_number_eq_none_iff]
    intro t ht
    have hvalue : m = t.toInt := Int.cast_inj.mp ht
    have hhigh := t.toInt_lt
    omega

/-- Below the signed range by half a step of the doubles or less is rounded to its end. -/
theorem units_ofNat_of_near {m : Nat} (h : m < 2 ^ 64) (hlow : 2 ^ 63 ≤ m)
    (hhigh : m ≤ 2 ^ 63 + 2 ^ 10) :
    (Double.Finite.ofNat true m h).units = 2 ^ 63 * Double.perOne := by
  have hends : Double.nearest ((2 ^ 63 + 2 ^ 10) * Double.perOne) 1 =
      Double.nearest (2 ^ 63 * Double.perOne) 1 := by decide +kernel
  have hnearest : Double.nearest (m * Double.perOne) 1 =
      Double.nearest (2 ^ 63 * Double.perOne) 1 := by
    apply Nat.le_antisymm
    · rw [← hends]
      exact Double.nearest_mono Nat.one_pos (Nat.mul_le_mul_right _ hhigh)
    · exact Double.nearest_mono Nat.one_pos (Nat.mul_le_mul_right _ hlow)
  change Double.units (Double.nearest (m * Double.perOne) 1) = _
  rw [hnearest]
  decide +kernel

/-- Further below the next double is nearer. -/
theorem le_units_ofNat_of_lt {m : Nat} (h : m < 2 ^ 64) (hlow : 2 ^ 63 + 2 ^ 10 < m) :
    (2 ^ 63 + 2 ^ 11) * Double.perOne ≤ (Double.Finite.ofNat true m h).units := by
  calc (2 ^ 63 + 2 ^ 11) * Double.perOne
      ≤ Double.units (Double.nearest ((2 ^ 63 + 2 ^ 10 + 1) * Double.perOne) 1) := by
        decide +kernel
    _ ≤ Double.units (Double.nearest (m * Double.perOne) 1) :=
        Double.units_le_units (Double.nearest_mono Nat.one_pos (Nat.mul_le_mul_right _ hlow))

variable {l : Literal} {n : Number}

theorem toMillis?_of_fits (h : l.lexeme.toNumber = .ok n) (hlow : -2 ^ 63 ≤ l.value)
    (hhigh : l.value < 2 ^ 63) : (Json.number n).toMillis? = some (Int64.ofInt l.value) := by
  by_cases hzero : l.negative → l.value < 0
  · rw [Literal.toNumber_of_fits hlow (by omega) hzero] at h
    cases h
    rw [toMillis?_integer, if_pos hhigh]
  · -- The other literal of this range is the minus zero, which is a double.
    obtain ⟨hsign, hnotneg⟩ := Classical.not_imp.mp hzero
    have hvalue := Literal.value_of_negative hsign
    have hmagnitude : l.magnitude = 0 := by omega
    have hlt : l.magnitude < 2 ^ 64 := by omega
    rw [Literal.toNumber_of_below hsign hlt (.inl hmagnitude)] at h
    cases h
    have hunits : (Double.Finite.ofNat true l.magnitude hlt).units = 0 * Double.perOne := by
      change Double.units (Double.nearest (l.magnitude * Double.perOne) 1) = _
      rw [hmagnitude]
      decide +kernel
    rw [toMillis?_of_units rfl hunits (Nat.zero_le _), hvalue, hmagnitude]

theorem toMillis?_just_below (h : l.lexeme.toNumber = .ok n) (hlow : -2 ^ 63 - 2 ^ 10 ≤ l.value)
    (hhigh : l.value < -2 ^ 63) : (Json.number n).toMillis? = some Int64.minValue := by
  have hsign := Literal.negative_of_value_neg (l := l) (by omega)
  have hvalue := Literal.value_of_negative hsign
  have hlt : l.magnitude < 2 ^ 64 := by omega
  rw [Literal.toNumber_of_below hsign hlt (.inr (by omega))] at h
  cases h
  rw [toMillis?_of_units rfl (units_ofNat_of_near hlt (by omega) (by omega)) (Nat.le_refl _)]
  rfl

theorem toMillis?_outside (h : l.lexeme.toNumber = .ok n)
    (hfar : l.value < -2 ^ 63 - 2 ^ 10 ∨ 2 ^ 63 ≤ l.value) :
    (Json.number n).toMillis? = none := by
  have habs := l.natAbs_value
  by_cases hlt : l.magnitude < 2 ^ 64
  · rcases hfar with hbelow | habove
    · have hsign := Literal.negative_of_value_neg (l := l) (by omega)
      rw [Literal.toNumber_of_below hsign hlt (.inr (by omega))] at h
      cases h
      exact toMillis?_of_far (le_units_ofNat_of_lt hlt (by omega))
    · have hzero : l.negative → l.value < 0 := by
        intro hsign
        have hvalue := Literal.value_of_negative hsign
        omega
      rw [Literal.toNumber_of_fits (by omega) (by omega) hzero] at h
      cases h
      rw [toMillis?_integer, if_neg (by omega)]
  · obtain ⟨x, rfl, hx⟩ := Literal.exists_far_of_le (Nat.not_lt.mp hlt) h
    exact toMillis?_of_far hx

end Json

/-- The times that a reply may echo. -/
inductive TimeField where
  | serverRecv
  | serverSend
  | clientSend
  deriving DecidableEq

/-- The key that a time stands under. -/
def TimeField.key : TimeField → String
  | .serverRecv => "serverRecvMs"
  | .serverSend => "serverSendMs"
  | .clientSend => "clientSendMsEcho"

/-- A time among the echo fields. -/
def Echo.time (echo : Echo) : TimeField → Option Int64
  | .serverRecv => echo.serverRecv
  | .serverSend => echo.serverSend
  | .clientSend => echo.clientSend

namespace Response

theorem time_echo (response : Response) (field : TimeField) :
    response.echo.time field = response.lookup field.key Json.toMillis? := by
  cases field <;> rfl

variable {bytes : List UInt8} {response : Response} {t : Json.Tree} {field : TimeField}
  {l : Json.Literal}

/-- A literal in the header is the time, as far as it is one. -/
theorem exists_time_eq_toMillis? (h : ofBytes bytes = .ok response) (ht : Holds bytes t)
    (hheader : (t.get? "header").bind (Json.Tree.get? field.key) = some (.number l.lexeme))
    (hbody : (t.get? "body").bind (Json.Tree.get? field.key) = none) :
    ∃ n, l.lexeme.toNumber = .ok n ∧ response.echo.time field = (Json.number n).toMillis? := by
  obtain ⟨-, -, hmeans⟩ := means_of_ofBytes h ht
  have hvalue := hmeans.get?_get? "header" field.key
  have hother := hmeans.get?_get? "body" field.key
  rw [hheader] at hvalue
  rw [hbody] at hother
  generalize hx : (response.value.get? "header").bind (Json.get? field.key) = x at hvalue
  generalize hy : (response.value.get? "body").bind (Json.get? field.key) = y at hother
  cases hother
  cases hvalue with
  | some hnumber =>
      cases hnumber with
      | @number _ n hn =>
          refine ⟨n, hn, ?_⟩
          rw [time_echo, lookup_eq, hx, hy]
          simp

/-- A reply that says one time in its header. -/
def timeText (field : TimeField) (l : Json.Literal) : List Char :=
  '{' :: (Json.quote "header" ++ ':' :: '{' ::
    (Json.quote field.key ++ ':' :: (l.text ++ ['}', '}'])))

/-- The document of such a reply. -/
def timeTree (field : TimeField) (l : Json.Literal) : Json.Tree :=
  .object [("header", .object [(field.key, .number l.lexeme)])]

theorem holds_timeText (field : TimeField) (l : Json.Literal) :
    Holds (Utf8.encode (timeText field l)) (timeTree field l) := by
  have hkey := Json.stringText_quote field.key
  have hinner := Json.Spells.object (.lastMember .nil hkey .nil .nil (.number l.numberText) .nil)
  have houter := Json.Spells.object
    (.lastMember .nil (Json.stringText_quote "header") .nil .nil hinner .nil)
  have hdocument := Json.SpellsDocument.around .nil houter .nil
  have hend : timeText field l = '{' :: (Json.quote "header" ++ ':' :: '{' ::
      (Json.quote field.key ++ ':' :: (l.text ++ ['}']))) ++ ['}'] := by simp [timeText]
  refine ⟨_, rfl, ?_⟩
  rw [hend, Text.trimEnd_concat _ rfl]
  simpa [timeTree] using hdocument

theorem get?_timeTree (field : TimeField) (l : Json.Literal) :
    ((timeTree field l).get? "header").bind (Json.Tree.get? field.key) =
        some (.number l.lexeme) ∧
      ((timeTree field l).get? "body").bind (Json.Tree.get? field.key) = none := by
  cases field <;> exact ⟨rfl, rfl⟩

theorem exists_response_timeText (field : TimeField) (h : l.lexeme.InRange) :
    ∃ response, ofBytes (Utf8.encode (timeText field l)) = .ok response := by
  have hdepth : (timeTree field l).depth ≤ Json.maxDepth := by
    simp [timeTree, Json.Tree.depth, Json.Tree.depthMembers, Json.maxDepth]
  have hrange : (timeTree field l).InRange := by
    simpa [timeTree, Json.Tree.InRange, Json.Tree.lexemes, Json.Tree.lexemesMembers] using h
  exact ⟨⟨_⟩, ofBytes_eq_ok_iff.mpr
    ⟨_, holds_timeText field l, hdepth, hrange, (Json.means_iff hrange).mpr rfl⟩⟩

/-- A time written as a whole number in the header, and not in the body, is that number if the
signed range has it, and missing if not. The numbers that are rounded to the lower end of the range
are read as that end. -/
theorem whole_time_read_exactly (h : ofBytes bytes = .ok response) (ht : Holds bytes t)
    (hheader : (t.get? "header").bind (Json.Tree.get? field.key) = some (.number l.lexeme))
    (hbody : (t.get? "body").bind (Json.Tree.get? field.key) = none) :
    (-2 ^ 63 ≤ l.value → l.value < 2 ^ 63 →
      ∃ n, response.echo.time field = some n ∧ n.toInt = l.value) ∧
    (-2 ^ 63 - 2 ^ 10 ≤ l.value → l.value < -2 ^ 63 →
      response.echo.time field = some Int64.minValue) ∧
    (l.value < -2 ^ 63 - 2 ^ 10 ∨ 2 ^ 63 ≤ l.value → response.echo.time field = none) := by
  obtain ⟨n, hn, htime⟩ := exists_time_eq_toMillis? h ht hheader hbody
  rw [htime]
  refine ⟨?_, Json.toMillis?_just_below hn, Json.toMillis?_outside hn⟩
  intro hlow hhigh
  refine ⟨_, Json.toMillis?_of_fits hn hlow hhigh, ?_⟩
  exact Int64.toInt_ofInt_of_le hlow hhigh

/-- A reply with the lower end of the signed range. -/
theorem whole_time_read_exactly_least :
    let bytes := Utf8.encode "\x7b\"header\":\x7b\"serverRecvMs\":-9223372036854775808\x7d\x7d".toList
    let l := Json.Literal.ofInt (-9223372036854775808)
    ∃ response, ofBytes bytes = .ok response ∧ Holds bytes (timeTree .serverRecv l) ∧
      l.value = -9223372036854775808 ∧
      ∃ n, response.echo.serverRecv = some n ∧ n.toInt = -9223372036854775808 := by
  intro bytes l
  have hbytes : bytes = Utf8.encode (timeText .serverRecv l) := by decide +kernel
  have hvalue : l.value = -9223372036854775808 := by decide +kernel
  have hrange : l.lexeme.InRange :=
    ⟨_, Json.Literal.toNumber_of_fits hvalue.ge (by omega) fun _ => by omega⟩
  obtain ⟨response, hresponse⟩ := exists_response_timeText .serverRecv hrange
  have hholds := holds_timeText .serverRecv l
  obtain ⟨hheader, hbody⟩ := get?_timeTree .serverRecv l
  obtain ⟨n, htime, hn⟩ :=
    (whole_time_read_exactly hresponse hholds hheader hbody).1 hvalue.ge (by omega)
  rw [hbytes]
  exact ⟨response, hresponse, hholds, hvalue, n, htime, hn.trans hvalue⟩

/-- A reply with a time that is out of the signed range and not missing: the number below the lower
end is rounded to that end before it is looked at. -/
theorem time_below_range_not_missing :
    let bytes := Utf8.encode "\x7b\"header\":\x7b\"serverRecvMs\":-9223372036854775809\x7d\x7d".toList
    let l := Json.Literal.ofInt (-9223372036854775809)
    ∃ response t, ofBytes bytes = .ok response ∧ Holds bytes t ∧
      (t.get? "header").bind (Json.Tree.get? "serverRecvMs") = some (.number l.lexeme) ∧
      (t.get? "body").bind (Json.Tree.get? "serverRecvMs") = none ∧
      l.value = -9223372036854775809 ∧ response.echo.serverRecv = some Int64.minValue := by
  intro bytes l
  have hbytes : bytes = Utf8.encode (timeText .serverRecv l) := by decide +kernel
  have hvalue : l.value = -9223372036854775809 := by decide +kernel
  have hmagnitude : l.magnitude = 9223372036854775809 := by decide +kernel
  have hrange : l.lexeme.InRange :=
    ⟨_, Json.Literal.toNumber_of_below rfl (by omega) (.inr (by omega))⟩
  obtain ⟨response, hresponse⟩ := exists_response_timeText .serverRecv hrange
  have hholds := holds_timeText .serverRecv l
  obtain ⟨hheader, hbody⟩ := get?_timeTree .serverRecv l
  obtain ⟨n, hn, htime⟩ := exists_time_eq_toMillis? hresponse hholds hheader hbody
  have hleast := Json.toMillis?_just_below hn (by omega) (by omega)
  rw [hbytes]
  exact ⟨response, _, hresponse, hholds, hheader, hbody, hvalue, htime.trans hleast⟩

end Response
end LatencyProbe
