import LatencyProbe.Proofs.Exchange
import LatencyProbe.Proofs.Response

/-!
# Answers that are cut off

A probe reads once, so an answer may reach it cut off at any byte: inside a character, a string, a
number, or the blanks at its end. A document other than a number does not go on once it is complete,
so what is left of it after a cut is no document. A number is: `12` is what a cut may leave of
`123`.
-/

namespace LatencyProbe

namespace Json

theorem isNumber_collated (v : Json) : v.collated.isNumber = v.isNumber := by
  cases v <;> rfl

/-- The first character of a document after its blanks tells whether it is a number. -/
theorem Document.head_dropBlanks {text : List Char} {v : Json} (h : Document text v) :
    ∃ c more, Scan.dropBlanks text = c :: more ∧ startsNumber c = v.isNumber := by
  cases h with
  | @around before text after _ hbefore hvalue _ =>
      obtain ⟨c, more, rfl, hblank, -, hc⟩ := Scan.head_denotes hvalue
      refine ⟨c, more ++ after, ?_, hc⟩
      rw [Scan.dropBlanks_append hbefore, List.cons_append, Scan.dropBlanks_cons hblank]

theorem Document.isNumber_of_append {text more : List Char} {v w : Json} (h : Document text v)
    (hw : Document (text ++ more) w) : v.isNumber = w.isNumber := by
  obtain ⟨c, tail, htext, hc⟩ := h.head_dropBlanks
  obtain ⟨d, tail', htext', hd⟩ := hw.head_dropBlanks
  obtain ⟨blanks, hb, rfl, hblank⟩ := Scan.dropBlanks_eq_cons.mp htext
  rw [List.append_assoc, Scan.dropBlanks_append hb, List.cons_append,
    Scan.dropBlanks_cons hblank] at htext'
  rw [← hc, ← hd, (List.cons.inj htext').1]

/-- A document that is no number goes on with nothing but blanks. -/
theorem Document.eq_of_append {text more : List Char} {v w : Json} (h : Document text v)
    (hw : Document (text ++ more) w) (hvalue : w.isNumber = false) : v = w ∧ Blanks more := by
  have hnumber : v.isNumber = false := (h.isNumber_of_append hw).trans hvalue
  obtain ⟨rest, hread, hrest⟩ := Scan.onDocument_eq_ok.mp (parseRaw_eq_ok.mpr hw)
  cases h with
  | @around before text after _ hbefore htext _ =>
      have hfirst := Scan.accepts_of_denotes htext (after ++ more) fun hv => by simp [hnumber] at hv
      rw [List.append_assoc, List.append_assoc, Scan.value_blanks hbefore, hfirst] at hread
      cases hread
      exact ⟨rfl, fun c hc => hrest c (List.mem_append_right _ hc)⟩

end Json

namespace Response

/-- A part of a text that is a document other than a number, both without the blanks at their ends,
is all of it if it is a document. -/
theorem trimEnd_eq_of_prefix {part text : List Char} {v w : Json} (hpart : part <+: text)
    (hv : Json.Document (Text.trimEnd part) v) (hw : Json.Document (Text.trimEnd text) w)
    (hvalue : w.isNumber = false) : Text.trimEnd part = Text.trimEnd text := by
  obtain ⟨blanks, htext, hblank⟩ := Text.trimEnd_append_blanks text
  have hfront : Text.trimEnd part <+: Text.trimEnd text ++ blanks :=
    htext ▸ (Text.trimEnd_prefix part).trans hpart
  -- Two prefixes of one text: the shorter one begins the longer one, and the rest is blank.
  rcases List.prefix_or_prefix_of_prefix hfront (List.prefix_append _ _) with h | h
  · obtain ⟨more, hmore⟩ := h
    rw [← hmore] at hw
    have hblanks := (hv.eq_of_append hw hvalue).2
    rw [← Text.trimEnd_trimEnd text, ← hmore, Text.trimEnd_append_of_blank hblanks.isBlank,
      Text.trimEnd_trimEnd]
  · obtain ⟨more, hmore⟩ := h
    have hblank' : ∀ c ∈ more, Text.isBlank c := by
      intro c hc
      rw [← hmore, List.prefix_append_right_inj] at hfront
      exact hblank c (hfront.subset hc)
    rw [← Text.trimEnd_trimEnd part, ← hmore, Text.trimEnd_append_of_blank hblank',
      Text.trimEnd_trimEnd]

/-- What a cut leaves of a response that is no number is read as the same response or not at all,
and not at all if it leaves less than the response without the blanks at its end. -/
theorem ofBytes_take {text : List Char} {raw : Json} {response cut : Response} {k : Nat}
    (hraw : Json.Document (Text.trimEnd text) raw) (hresponse : response.value = raw.collated)
    (hvalue : response.value.isNumber = false)
    (hcut : ofBytes ((Utf8.encode text).take k) = .ok cut) :
    cut = response ∧ (Utf8.encode (Text.trimEnd text)).length ≤ k := by
  rw [hresponse, Json.isNumber_collated] at hvalue
  obtain ⟨part, raw', hbytes, hraw', hcut⟩ := ofBytes_eq_ok.mp hcut
  have hpart : part <+: text :=
    Utf8.prefix_of_encode_prefix (hbytes ▸ List.take_prefix k (Utf8.encode text))
  have htrim := trimEnd_eq_of_prefix hpart hraw' hraw hvalue
  constructor
  · rw [htrim] at hraw'
    have hwhole : Json.Document (Text.trimEnd text ++ []) raw := by rwa [List.append_nil]
    have hsame := (hraw'.eq_of_append hwhole hvalue).1
    obtain ⟨value⟩ := cut
    obtain ⟨value'⟩ := response
    simp_all
  · obtain ⟨blanks, hblanks, -⟩ := Text.trimEnd_append_blanks part
    have hlength := congrArg List.length hbytes
    rw [hblanks, Utf8.encode_append, htrim, List.length_append, List.length_take] at hlength
    omega

/-- An answer that holds a response other than a number is never misread for being cut off, and an
exchange that meets it returns that response with its echo fields or fails. -/
theorem cut_answer_never_misread {bytes : List UInt8} {response : Response}
    (h : ofBytes bytes = .ok response) (hvalue : response.value.isNumber = false) :
    ∃ text, Utf8.decode bytes = .ok text ∧
      (∀ k, (∃ fault, ofBytes (bytes.take k) = .error fault) ∨
        ofBytes (bytes.take k) = .ok response) ∧
      (∀ k < (Utf8.encode (Text.trimEnd text)).length,
        ∃ fault, ofBytes (bytes.take k) = .error fault) ∧
      ∀ (config : Probe.Config) (encounter : Probe.Encounter) (body : Body),
        encounter.server.answer (Probe.request config encounter.clock body).bytes = some bytes →
        (∃ failure, (Probe.exchange config encounter body).outcome = .failed failure) ∨
        ∃ exchange, (Probe.exchange config encounter body).outcome = .done exchange ∧
          exchange.response = response ∧ exchange.echo = response.echo := by
  obtain ⟨text, raw, rfl, hraw, hresponse⟩ := ofBytes_eq_ok.mp h
  have hcut {k : Nat} {cut : Response} (hk : ofBytes ((Utf8.encode text).take k) = .ok cut) :=
    ofBytes_take hraw hresponse hvalue hk
  refine ⟨text, Utf8.decode_encode text, ?_, ?_, ?_⟩
  · intro k
    cases hk : ofBytes ((Utf8.encode text).take k) with
    | error fault => exact .inl ⟨fault, rfl⟩
    | ok cut => exact .inr (congrArg _ (hcut hk).1)
  · intro k hshort
    cases hk : ofBytes ((Utf8.encode text).take k) with
    | error fault => exact ⟨fault, rfl⟩
    | ok cut => exact absurd (hcut hk).2 (Nat.not_le.mpr hshort)
  · intro config encounter body hanswer
    rw [Probe.outcome_exchange, hanswer]
    cases encounter.server.connectFault? config.address with
    | some fault => exact .inl ⟨_, rfl⟩
    | none =>
        cases encounter.server.sendError with
        | some error => exact .inl ⟨_, rfl⟩
        | none =>
            cases encounter.server.receiveError with
            | some error => exact .inl ⟨_, rfl⟩
            | none =>
                cases hread : ofBytes ((Utf8.encode text).take Probe.bufferSize) with
                | error fault =>
                    refine .inl ⟨.response fault, ?_⟩
                    dsimp only
                    rw [hread]
                | ok cut =>
                    obtain rfl := (hcut hread).1
                    refine .inr ⟨Probe.concluded config encounter.clock cut, ?_, rfl, rfl⟩
                    dsimp only
                    rw [hread]

/-- The letter of this answer takes two bytes, so a cut may also fall inside of it. -/
theorem cut_answer_never_misread_two_bytes :
    let bytes : List UInt8 := [0x5B, 0x22, 0xC3, 0xA9, 0x22, 0x5D, 0x20]
    let response : Response := ⟨.array [.string "é"]⟩
    ofBytes bytes = .ok response ∧ response.value.isNumber = false ∧
      ∀ k, (∃ fault, ofBytes (bytes.take k) = .error fault) ∨
        ofBytes (bytes.take k) = .ok response := by
  intro bytes response
  have hbytes : ofBytes bytes = .ok response := rfl
  have hvalue : response.value.isNumber = false := rfl
  obtain ⟨_, _, hcut, _⟩ := cut_answer_never_misread hbytes hvalue
  exact ⟨hbytes, hvalue, hcut⟩

end Response
end LatencyProbe
