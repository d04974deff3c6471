import LatencyProbe.Proofs.Latencies
import LatencyProbe.Proofs.Text.Decimal
import LatencyProbe.RequestId

/-!
# What a request id says

An id is five fields between underscores, and none of them holds an underscore, so the fields can be
told apart: the milliseconds and the session are in it, each as a decimal that is read back, and no
two pairs of them share an id. The checksum adds nothing to that. All that is needed of it is that
it is made of hexadecimal digits, whichever sixteen bytes the digest is.
-/

namespace LatencyProbe

/-- Rounded down to milliseconds, zero before the epoch, and wrapped around to 64 bits. -/
theorem Instant.toInt_millis_eq (t : Instant) :
    t.millis.toInt = (max 0 (t.totalNanos / 1000000)).bmod (2 ^ 64) := by
  rw [toInt_millis, totalMillis_eq, Int.ofNat_toNat, max_comm]
  rfl

namespace Json

/-- A visible character other than the quote and the backslash stands for itself. -/
theorem escape_eq_self {c : Char} (hquote : c ≠ '"') (hbackslash : c ≠ '\\')
    (hvisible : 0x20 ≤ c.toNat) : escape c = [c] := by
  have hcontrol {d : Char} (h : d.toNat < 0x20) : c ≠ d := by
    rintro rfl
    omega
  rw [escape, if_neg hquote, if_neg hbackslash, if_neg (hcontrol (by decide)),
    if_neg (hcontrol (by decide)), if_neg (hcontrol (by decide)), if_neg (by omega),
    if_neg (by omega), if_neg (by omega)]

theorem escape_of_isDigit {c : Char} (h : c.isDigit) : escape c = [c] := by
  have hcode : 0x30 ≤ c.toNat ∧ c.toNat ≤ 0x39 := by
    rw [Char.isDigit_iff_toNat] at h
    exact h
  refine escape_eq_self ?_ ?_ (by omega) <;>
    · rintro rfl
      simp at hcode

/-- Characters that stand for themselves stand in a string as they are. -/
theorem quote_of_escape_eq_self {s : String} (h : ∀ c ∈ s.toList, escape c = [c]) :
    quote s = '"' :: (s.toList ++ ['"']) := by
  rw [quote, List.flatMap_congr h, List.flatMap_singleton']

end Json

namespace RequestId

/-- The hexadecimal digits of a checksum. -/
def checksumDigits : List Char :=
  ['0', '1', '2', '3', '4', '5', '6', '7', '8', '9', 'A', 'B', 'C', 'D', 'E', 'F']

theorem toUpper_digitChar_mem : ∀ n < 16, n.digitChar.toUpper ∈ checksumDigits := by decide

theorem mem_checksumDigits_of_mem_hexByte {b : UInt8} {c : Char} (h : c ∈ hexByte b) :
    c ∈ checksumDigits := by
  have hb := b.toNat_lt
  rcases List.mem_pair.mp h with rfl | rfl
  · exact toUpper_digitChar_mem _ (by omega)
  · exact toUpper_digitChar_mem _ (by omega)

theorem length_flatMap_hexByte (bytes : List UInt8) :
    (bytes.flatMap hexByte).length = 2 * bytes.length := by
  induction bytes with
  | nil => rfl
  | cons b bytes ih =>
      rw [List.flatMap_cons, List.length_append, ih, List.length_cons]
      simp only [hexByte, List.length_cons, List.length_nil]
      omega

theorem length_checksum (seed : List Char) : (checksum seed).length = 8 := by
  rw [checksum, List.length_take, length_flatMap_hexByte, Md5.length_digest]
  rfl

theorem mem_checksumDigits_of_mem_checksum {seed : List Char} {c : Char} (h : c ∈ checksum seed) :
    c ∈ checksumDigits := by
  obtain ⟨b, -, hc⟩ := List.mem_flatMap.mp (List.mem_of_mem_take h)
  exact mem_checksumDigits_of_mem_hexByte hc

/-- The fields of an id with a given checksum. -/
def fields (millis : Int64) (session : UInt64) (checksum : List Char) : List (List Char) :=
  [['s', 'y', 'n', 'c'], Text.decimal millis.toInt, Text.decimal session.toNat,
    Text.decimal (sequenceNumber millis), checksum]

variable {millis millis' : Int64} {session session' : UInt64}

theorem toList_ofMillis (millis : Int64) (session : UInt64) :
    (ofMillis millis session).toList =
      ['_'].intercalate (fields millis session (checksum (seed millis session))) := by
  simp [ofMillis, fields, seed]

/-- An id is cut into its fields, whatever its checksum is, as long as that has no underscore. -/
theorem splitOn_intercalate_fields {checksum : List Char} (h : '_' ∉ checksum) :
    (['_'].intercalate (fields millis session checksum)).splitOn '_' =
      fields millis session checksum := by
  refine List.splitOn_intercalate '_' ?_ (List.cons_ne_nil _ _)
  have hdecimal (n : Int) : '_' ∉ Text.decimal n := Text.notMem_decimal (by decide) rfl n
  intro field hfield
  simp only [fields, List.mem_cons, List.not_mem_nil, or_false] at hfield
  rcases hfield with rfl | rfl | rfl | rfl | rfl
  · decide
  · exact hdecimal _
  · exact hdecimal _
  · exact hdecimal _
  · exact h

theorem splitOn_ofMillis (millis : Int64) (session : UInt64) :
    (ofMillis millis session).toList.splitOn '_' =
      fields millis session (checksum (seed millis session)) := by
  have hchecksum : '_' ∉ checksum (seed millis session) := by
    intro h
    exact absurd (mem_checksumDigits_of_mem_checksum h) (by decide)
  rw [toList_ofMillis, splitOn_intercalate_fields hchecksum]

/-- The milliseconds and the session can be read off an id. -/
theorem ofMillis_inj :
    ofMillis millis session = ofMillis millis' session' ↔ millis = millis' ∧ session = session' := by
  constructor
  · intro h
    have hfields := congrArg (fun id => id.toList.splitOn '_') h
    simp only [splitOn_ofMillis, fields, List.cons.injEq] at hfields
    obtain ⟨-, hmillis, hsession, -⟩ := hfields
    have hnat := Int.ofNat_inj.mp (Text.decimal_injective hsession)
    exact ⟨Int64.toInt_inj.mp (Text.decimal_injective hmillis), UInt64.toNat_inj.mp hnat⟩
  · rintro ⟨rfl, rfl⟩
    rfl

theorem sequenceNumber_bounds (millis : Int64) :
    -9999 ≤ sequenceNumber millis ∧ sequenceNumber millis ≤ 9999 ∧
      (0 ≤ millis.toInt → 0 ≤ sequenceNumber millis) := by
  have hlow := Int.lt_tmod_of_pos (millis.toInt.tdiv 1000) (b := 10000) (by decide)
  have hhigh := Int.tmod_lt_of_pos (millis.toInt.tdiv 1000) (b := 10000) (by decide)
  refine ⟨?_, ?_, ?_⟩
  · rw [sequenceNumber]
    omega
  · rw [sequenceNumber]
    omega
  · intro h
    exact Int.tmod_nonneg 10000 (Int.tdiv_nonneg h (by decide))

theorem escape_of_mem_fields {field : List Char} {c : Char}
    (h : field ∈ fields millis session (checksum (seed millis session))) (hc : c ∈ field) :
    Json.escape c = [c] := by
  have hdecimal {n : Int} (hc : c ∈ Text.decimal n) : Json.escape c = [c] := by
    rcases Text.eq_minus_or_isDigit_of_mem_decimal hc with rfl | hdigit
    · rfl
    · exact Json.escape_of_isDigit hdigit
  have hplain : ∀ c ∈ ['s', 'y', 'n', 'c'] ++ checksumDigits,
      c ≠ '"' ∧ c ≠ '\\' ∧ 0x20 ≤ c.toNat := by simp [checksumDigits]
  have hfixed {c : Char} (hc : c ∈ ['s', 'y', 'n', 'c'] ++ checksumDigits) :
      Json.escape c = [c] := by
    obtain ⟨hquote, hbackslash, hvisible⟩ := hplain c hc
    exact Json.escape_eq_self hquote hbackslash hvisible
  simp only [fields, List.mem_cons, List.not_mem_nil, or_false] at h
  rcases h with rfl | rfl | rfl | rfl | rfl
  · exact hfixed (List.mem_append_left _ hc)
  · exact hdecimal hc
  · exact hdecimal hc
  · exact hdecimal hc
  · exact hfixed (List.mem_append_right _ (mem_checksumDigits_of_mem_checksum hc))

theorem mem_of_mem_intercalate {lines : List (List Char)} {separator c : Char}
    (h : c ∈ [separator].intercalate lines) : c = separator ∨ ∃ line ∈ lines, c ∈ line := by
  induction lines with
  | nil => cases h
  | cons line lines ih =>
      cases lines with
      | nil =>
          rw [List.intercalate_singleton] at h
          exact .inr ⟨line, List.mem_singleton_self line, h⟩
      | cons next lines =>
          rw [List.intercalate_cons_cons, List.append_assoc, List.mem_append,
            List.singleton_append, List.mem_cons] at h
          rcases h with hline | hseparator | hrest
          · exact .inr ⟨line, List.mem_cons_self, hline⟩
          · exact .inl hseparator
          · obtain hc | ⟨other, hother, hc⟩ := ih hrest
            · exact .inl hc
            · exact .inr ⟨other, List.mem_cons_of_mem _ hother, hc⟩

/-- No character of an id needs an escape. -/
theorem escape_of_mem_ofMillis {c : Char} (h : c ∈ (ofMillis millis session).toList) :
    Json.escape c = [c] := by
  rw [toList_ofMillis] at h
  rcases mem_of_mem_intercalate h with rfl | ⟨field, hfield, hc⟩
  · rfl
  · exact escape_of_mem_fields hfield hc

/-- A request with such an id begins with it, as it is. -/
theorem exists_text_make {id : String} (h : ∀ c ∈ id.toList, Json.escape c = [c])
    (clientSend : Int64) (body : Body) :
    ∃ rest, (Envelope.make id clientSend body).text =
      "\x7b\"header\":\x7b\"requestId\":\"".toList ++ (id.toList ++ '"' :: rest) := by
  apply Exists.intro
  simp only [Envelope.text, Envelope.toJson, Envelope.make, Header.toJson, Json.compact,
    Json.render, Json.renderMembers, Json.quote_of_escape_eq_self h, Json.Layout.compact,
    List.append_assoc, List.nil_append, List.cons_append]
  rfl

/-- Two ids are equal exactly if their readings have the same milliseconds and their sessions are the
same. An id is cut at its underscores into a word, the milliseconds, the session and the sequence
number, each a decimal that is read back, and eight hexadecimal digits, and a request begins with it
as it is. -/
theorem ofInstant_identifies (t : Instant) (session : UInt64) :
    t.millis.toInt = (max 0 (t.totalNanos / 1000000)).bmod (2 ^ 64) ∧
    (∀ t' session', ofInstant t session = ofInstant t' session' ↔
      t.millis = t'.millis ∧ session = session') ∧
    (∃ millis session' sequence checksum : String,
      (ofInstant t session).toList.splitOn '_' =
        ["sync".toList, millis.toList, session'.toList, sequence.toList, checksum.toList] ∧
      millis = Text.ofInt t.millis.toInt ∧ millis.toInt? = some t.millis.toInt ∧
      session' = Text.ofInt session.toNat ∧ session'.toNat? = some session.toNat ∧
      sequence = Text.ofInt (sequenceNumber t.millis) ∧
      sequence.toInt? = some (sequenceNumber t.millis) ∧
      checksum.toList.length = 8 ∧
      ∀ c ∈ checksum.toList, ('0' ≤ c ∧ c ≤ '9') ∨ ('A' ≤ c ∧ c ≤ 'F')) ∧
    sequenceNumber t.millis = (t.millis.toInt.tdiv 1000).tmod 10000 ∧
    -9999 ≤ sequenceNumber t.millis ∧ sequenceNumber t.millis ≤ 9999 ∧
    (0 ≤ t.millis.toInt → 0 ≤ sequenceNumber t.millis) ∧
    (∀ c ∈ (ofInstant t session).toList, Json.escape c = [c]) ∧
    ∀ clientSend body, ∃ rest, (Envelope.make (ofInstant t session) clientSend body).text =
      "\x7b\"header\":\x7b\"requestId\":\"".toList ++
        ((ofInstant t session).toList ++ '"' :: rest) := by
  have hplain : ∀ c ∈ (ofInstant t session).toList, Json.escape c = [c] :=
    fun c hc => escape_of_mem_ofMillis hc
  obtain ⟨hlow, hhigh, hnonneg⟩ := sequenceNumber_bounds t.millis
  refine ⟨t.toInt_millis_eq, fun _ _ => ofMillis_inj, ?_, rfl, hlow, hhigh, hnonneg, hplain,
    exists_text_make hplain⟩
  refine ⟨Text.ofInt t.millis.toInt, Text.ofInt session.toNat,
    Text.ofInt (sequenceNumber t.millis), String.ofList (checksum (seed t.millis session)), ?_, rfl,
    Text.toInt?_ofInt _, rfl, Text.toNat?_ofInt_natCast _, rfl, Text.toInt?_ofInt _, ?_, ?_⟩
  · simp only [Text.toList_ofInt, String.toList_ofList]
    exact splitOn_ofMillis t.millis session
  · rw [String.toList_ofList, length_checksum]
  · have hdigits : ∀ c ∈ checksumDigits, ('0' ≤ c ∧ c ≤ '9') ∨ ('A' ≤ c ∧ c ≤ 'F') := by
      simp [checksumDigits]
    intro c hc
    rw [String.toList_ofList] at hc
    exact hdigits c (mem_checksumDigits_of_mem_checksum hc)

end RequestId
end LatencyProbe
