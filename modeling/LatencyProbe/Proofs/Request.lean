import LatencyProbe.Proofs.Json.Members
import LatencyProbe.Proofs.Json.Printing
import LatencyProbe.Request.Format

/-!
# Requests on the wire

The bytes of a request are one line: a document without control characters, and a line break. What
the header says survives printing as it is; of the body only the coordinates can change.
-/

namespace LatencyProbe

/-- The bytes of a text without control characters are no control characters either. -/
theorem Json.Printable.le_of_mem_encode {text : List Char} (h : Json.Printable text) :
    ∀ b ∈ Utf8.encode text, 0x20 ≤ b.toNat := by
  intro b hb
  by_contra hsmall
  obtain ⟨c, hc, hcode⟩ := Utf8.exists_mem_of_mem_encode hb (by omega)
  have := h c hc
  omega

namespace Envelope

theorem depth_double (x : Double) : (Json.double x).depth = 0 := by
  cases x <;> rfl

theorem depth_position (position : Position) : position.toJson.depth = 1 := by
  simp [Position.toJson, Json.depth, Json.depthMembers, depth_double]

theorem depth_body_le (body : Body) : body.toJson.depth ≤ 2 := by
  cases body with
  | move body =>
      simp [Body.toJson, Move.toJson, Json.depth, Json.depthMembers, Json.word, depth_position]
  | join body =>
      simp [Body.toJson, Join.toJson, Character.toJson, Json.depth, Json.depthMembers, Json.word,
        depth_position]

theorem depth_header (header : Header) : header.toJson.depth = 1 := rfl

/-- Requests nest three deep at most. -/
theorem depth_le (e : Envelope) : e.toJson.depth ≤ 3 := by
  have hbody := depth_body_le e.body
  simp only [toJson, Json.depth, Json.depthMembers, depth_header]
  omega

theorem reread_header (header : Header) : header.toJson.reread = header.toJson := by
  simp [Header.toJson, Event.toJson, Json.int64, Json.reread, Json.rereadMembers]

/-- A request is a document, whose header is as it was and whose body is as it is read back. -/
theorem document_text (e : Envelope) :
    Json.Document e.text
      (.object [("header", e.header.toJson), ("body", e.body.toJson.reread)]) := by
  have hdepth : e.toJson.depth ≤ Json.maxDepth := (depth_le e).trans (by decide)
  have h := Json.document_render Json.Layout.isBlank_compact 0 hdepth
  rw [toJson, Json.reread, Json.rereadMembers, Json.rereadMembers, Json.rereadMembers,
    reread_header] at h
  exact h

theorem bytes_eq (e : Envelope) : e.bytes = Utf8.encode e.text ++ [10] := by
  rw [bytes, line, Utf8.encode_append]
  rfl

theorem bytes_ne_nil (e : Envelope) : e.bytes ≠ [] := by
  rw [bytes_eq]
  exact List.append_ne_nil_of_right_ne_nil _ (List.cons_ne_nil 10 [])

theorem le_of_mem_encode_text (e : Envelope) : ∀ b ∈ Utf8.encode e.text, 0x20 ≤ b.toNat :=
  (Json.printable_compact e.toJson).le_of_mem_encode

end Envelope
end LatencyProbe
