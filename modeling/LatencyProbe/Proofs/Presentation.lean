import LatencyProbe.Proofs.Json.Rereading
import LatencyProbe.Proofs.Response

/-!
# What is shown is what was received

The text of a response, on one line or with an item a line, is itself an answer that holds the
response. A response is collated and within the depth that the reader allows, so nothing but its
doubles could come back changed; where they are read back, the text tells which response it is of.
-/

namespace LatencyProbe

theorem Double.readsBack_zero (negative : Bool) :
    (Double.finite ⟨negative, 0, by decide⟩).ReadsBack := by
  cases negative <;> decide +kernel

namespace Response

variable {bytes : List UInt8} {response : Response}

/-- A response is collated and nested no deeper than the reader allows. -/
theorem collated_and_depth_le (h : ofBytes bytes = .ok response) :
    response.value.collated = response.value ∧ response.value.depth ≤ Json.maxDepth := by
  obtain ⟨_, raw, _, hraw, hvalue⟩ := ofBytes_eq_ok.mp h
  exact Json.collated_and_depth_le_of_parse (Json.parse_eq_ok.mpr ⟨raw, hraw, hvalue.symm⟩)

/-- The text of a value in a layout of blanks holds the value as it is read back. -/
theorem ofBytes_render {layout : Json.Layout} (blank : layout.IsBlank) {v : Json}
    (h : v.depth ≤ Json.maxDepth) :
    ofBytes (Utf8.encode (v.render layout 0)) = .ok ⟨v.reread.collated⟩ := by
  have htrim : Text.trimEnd (v.render layout 0 ++ []) = v.render layout 0 :=
    Json.trimEnd_of_denotes (Json.denotes_render blank 0 v h) (by simp)
  rw [List.append_nil] at htrim
  refine ofBytes_eq_ok.mpr ⟨_, v.reread, rfl, ?_, rfl⟩
  rw [htrim]
  exact Json.document_render blank 0 h

/-- A response whose doubles are read back is held by its own text. -/
theorem ofBytes_render_self {layout : Json.Layout} (blank : layout.IsBlank)
    (h : ofBytes bytes = .ok response) (hdoubles : ∀ x ∈ response.value.doubles, x.ReadsBack) :
    ofBytes (Utf8.encode (response.value.render layout 0)) = .ok response := by
  obtain ⟨hcollated, hdepth⟩ := collated_and_depth_le h
  rw [ofBytes_render blank hdepth, Json.reread_of_readsBack hdoubles, hcollated]

/-- What an operator is shown is an answer that holds the very response shown, and so is its text
on one line. Hence no two responses are shown alike. -/
theorem pretty_shows_received (h : ofBytes bytes = .ok response)
    (hdoubles : ∀ x ∈ response.value.doubles, x.ReadsBack) :
    ofBytes (Utf8.encode response.pretty.toList) = .ok response ∧
      ofBytes (Utf8.encode response.value.compact) = .ok response ∧
      ∀ bytes' response', ofBytes bytes' = .ok response' →
        (∀ x ∈ response'.value.doubles, x.ReadsBack) →
        response'.pretty = response.pretty → response' = response := by
  have hpretty {bytes : List UInt8} {response : Response} (h : ofBytes bytes = .ok response)
      (hdoubles : ∀ x ∈ response.value.doubles, x.ReadsBack) :
      ofBytes (Utf8.encode response.pretty.toList) = .ok response := by
    rw [pretty, String.toList_ofList]
    exact ofBytes_render_self Json.Layout.isBlank_pretty h hdoubles
  refine ⟨hpretty h hdoubles, ?_, ?_⟩
  · exact ofBytes_render_self Json.Layout.isBlank_compact h hdoubles
  · intro bytes' response' h' hdoubles' heq
    have hread := hpretty h' hdoubles'
    rw [heq, hpretty h hdoubles] at hread
    exact (Except.ok.inj hread).symm

/-- An answer with both ends of the whole numbers, a negative zero, empty containers, an escaped
control character and a letter that takes two bytes. -/
theorem pretty_shows_received_extremes :
    let bytes := Utf8.encode
      "\x7b\"é\":[-0.0,18446744073709551615,-9223372036854775808],\"a\":[[],\x7b\x7d,\"\\u0001\"]\x7d".toList
    ∃ response, ofBytes bytes = .ok response ∧
      response.value.doubles = [.finite ⟨true, 0, by decide⟩] ∧
      (∀ x ∈ response.value.doubles, x.ReadsBack) ∧
      ofBytes (Utf8.encode response.pretty.toList) = .ok response := by
  intro bytes
  have hread : (ofBytes bytes).toOption.map (·.value.doubles) =
      some [.finite ⟨true, 0, by decide⟩] := by decide +kernel
  cases hbytes : ofBytes bytes with
  | error fault =>
      rw [hbytes] at hread
      cases hread
  | ok response =>
      rw [hbytes] at hread
      have hzero : response.value.doubles = [.finite ⟨true, 0, by decide⟩] :=
        Option.some.inj hread
      have hdoubles : ∀ x ∈ response.value.doubles, x.ReadsBack := by
        intro x hx
        rw [hzero] at hx
        rw [List.mem_singleton.mp hx]
        exact Double.readsBack_zero true
      exact ⟨response, rfl, hzero, hdoubles, (pretty_shows_received hbytes hdoubles).1⟩

end Response
end LatencyProbe
