import LatencyProbe.Proofs.Json.Lexemes
import LatencyProbe.Proofs.Json.Meaning
import LatencyProbe.Proofs.Response

/-!
# Which answers are responses

An answer holds a document if it is a text that spells it, up to the blanks at the end. It holds one
at most, and it is a response exactly if it holds one that is not nested too deep and has no number
out of range; the response is then what the document means.
-/

namespace LatencyProbe

/-- Bytes that are the UTF-8 of a text. -/
def Utf8.IsText (bytes : List UInt8) : Prop := ∃ text, bytes = encode text

namespace Response

/-- The document that an answer holds, up to the blanks at its end. -/
def Holds (bytes : List UInt8) (t : Json.Tree) : Prop :=
  ∃ text, bytes = Utf8.encode text ∧ Json.SpellsDocument (Text.trimEnd text) t

variable {bytes : List UInt8} {response : Response} {t : Json.Tree}

theorem Holds.unique {t' : Json.Tree} (h : Holds bytes t) (h' : Holds bytes t') : t = t' := by
  obtain ⟨text, rfl, ht⟩ := h
  obtain ⟨text', heq, ht'⟩ := h'
  have hsame : text = text' := by
    have hdecode := congrArg Utf8.decode heq
    rw [Utf8.decode_encode, Utf8.decode_encode] at hdecode
    exact Except.ok.inj hdecode
  subst hsame
  exact ht.unique ht'

theorem ofBytes_eq_ok_iff : ofBytes bytes = .ok response ↔
    ∃ t, Holds bytes t ∧ t.depth ≤ Json.maxDepth ∧ t.InRange ∧ Json.Means t response.value := by
  constructor
  · intro h
    obtain ⟨text, raw, hbytes, hraw, hvalue⟩ := ofBytes_eq_ok.mp h
    obtain ⟨t, htext, hfits⟩ :=
      Json.parse_eq_ok_iff.mp (Json.parse_eq_ok.mpr ⟨raw, hraw, hvalue.symm⟩)
    exact ⟨t, ⟨text, hbytes, htext⟩, hfits⟩
  · rintro ⟨t, ⟨text, hbytes, htext⟩, hfits⟩
    obtain ⟨raw, hraw, hvalue⟩ :=
      Json.parse_eq_ok.mp (Json.parse_eq_ok_iff.mpr ⟨t, htext, hfits⟩)
    exact ofBytes_eq_ok.mpr ⟨text, raw, hbytes, hraw, hvalue.symm⟩

theorem means_of_ofBytes (h : ofBytes bytes = .ok response) (ht : Holds bytes t) :
    t.depth ≤ Json.maxDepth ∧ t.InRange ∧ Json.Means t response.value := by
  obtain ⟨t', ht', hfits⟩ := ofBytes_eq_ok_iff.mp h
  rwa [ht.unique ht']

/-- What was being done when an answer proved to be no response. -/
theorem chain_of_ofBytes {fault : Fault} (h : ofBytes bytes = .error fault) :
    fault.chain.head? = some "response is not valid UTF-8" ∧ ¬Utf8.IsText bytes ∨
      fault.chain.head? = some "parsing response JSON" ∧ Utf8.IsText bytes := by
  rw [ofBytes] at h
  split at h
  · next hdecode =>
    cases h
    refine .inl ⟨rfl, ?_⟩
    rintro ⟨text, rfl⟩
    rw [Utf8.decode_encode] at hdecode
    cases hdecode
  · next text hdecode =>
    split at h
    · cases h
      exact .inr ⟨rfl, text, Utf8.decode_eq_ok_iff.mp hdecode⟩
    · cases h

end Response
end LatencyProbe
