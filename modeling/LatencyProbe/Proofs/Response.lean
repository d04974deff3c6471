import LatencyProbe.Echo
import LatencyProbe.Proofs.Json.Printing

/-!
# Reading answers

`ofBytes_eq_ok` says which bytes hold a response, without the reader. A value that is printed on a
line of its own is one of them: what is cut off the end of an answer leaves a document as it is.
-/

namespace LatencyProbe

namespace Text

theorem trimEnd_prefix (cs : List Char) : trimEnd cs <+: cs := by
  obtain ⟨blanks, hcs, -⟩ := trimEnd_append_blanks cs
  conv_rhs => rw [hcs]
  exact List.prefix_append _ _

theorem trimEnd_append_of_blank {cs blanks : List Char} (h : ∀ c ∈ blanks, isBlank c) :
    trimEnd (cs ++ blanks) = trimEnd cs := by
  have hdrop : ∀ c ∈ blanks.reverse, isBlank c := fun c hc => h c (List.mem_reverse.mp hc)
  rw [trimEnd, List.reverse_append, List.dropWhile_append_of_pos hdrop, trimEnd]

theorem trimEnd_trimEnd (cs : List Char) : trimEnd (trimEnd cs) = trimEnd cs := by
  obtain ⟨blanks, hcs, hblank⟩ := trimEnd_append_blanks cs
  conv_rhs => rw [hcs]
  exact (trimEnd_append_of_blank hblank).symm

end Text

namespace Json

/-- The blanks of documents are among those that are cut off the end of an answer. -/
theorem Blanks.isBlank {blanks : List Char} (h : Blanks blanks) : ∀ c ∈ blanks, Text.isBlank c := by
  intro c hc
  have hblank := h c hc
  simp only [Scan.isBlank, Bool.or_eq_true, decide_eq_true_eq] at hblank
  rcases hblank with ((rfl | rfl) | rfl) | rfl <;> rfl

/-- A visible character is not cut off. -/
theorem Visible.not_isBlank {c : Char} (h : Visible c) : Text.isBlank c = false := by
  obtain ⟨hlow, hhigh⟩ := h
  simp only [Text.isBlank, Bool.or_eq_false_iff, Bool.and_eq_false_iff, decide_eq_false_iff_not,
    beq_eq_false_iff_ne]
  omega

/-- The text of a value ends in a character that is not cut off. -/
theorem exists_concat_of_denotes {depth : Nat} {text : List Char} {v : Json}
    (h : Denotes depth text (.value v)) :
    ∃ front c, text = front ++ [c] ∧ Text.isBlank c = false := by
  generalize hp : Phrase.value v = phrase at h
  cases h with
  | number htext _ =>
      have hne := numberText_ne_nil htext
      refine ⟨text.dropLast, text.getLast hne, (List.dropLast_concat_getLast hne).symm, ?_⟩
      exact (visible_of_mem_numberText htext _ (List.getLast_mem hne)).not_isBlank
  | string hs =>
      cases hs with
      | @quoted inside _ _ => exact ⟨'"' :: inside, '"', rfl, rfl⟩
  | null => exact ⟨['n', 'u', 'l'], 'l', rfl, rfl⟩
  | true => exact ⟨['t', 'r', 'u'], 'e', rfl, rfl⟩
  | false => exact ⟨['f', 'a', 'l', 's'], 'e', rfl, rfl⟩
  | @emptyArray _ inside _ | @array _ inside _ _ => exact ⟨'[' :: inside, ']', rfl, rfl⟩
  | @emptyObject _ inside _ | @object _ inside _ _ => exact ⟨'{' :: inside, '}', rfl, rfl⟩
  | lastItem | item | lastMember | member => cases hp

theorem trimEnd_of_denotes {depth : Nat} {text blanks : List Char} {v : Json}
    (h : Denotes depth text (.value v)) (hblanks : ∀ c ∈ blanks, Text.isBlank c) :
    Text.trimEnd (text ++ blanks) = text := by
  obtain ⟨front, c, rfl, hc⟩ := exists_concat_of_denotes h
  rw [Text.trimEnd_append_of_blank hblanks, Text.trimEnd_concat front hc]

end Json

namespace Response

theorem ofBytes_eq_ok {bytes : List UInt8} {response : Response} :
    ofBytes bytes = .ok response ↔ ∃ text raw, bytes = Utf8.encode text ∧
      Json.Document (Text.trimEnd text) raw ∧ response.value = raw.collated := by
  constructor
  · intro h
    rw [ofBytes] at h
    split at h
    · cases h
    next text htext =>
      split at h
      · cases h
      next value hvalue =>
        cases h
        obtain ⟨raw, hraw, rfl⟩ := Json.parse_eq_ok.mp hvalue
        exact ⟨text, raw, Utf8.decode_eq_ok_iff.mp htext, hraw, rfl⟩
  · rintro ⟨text, raw, rfl, hraw, hvalue⟩
    rw [ofBytes]
    rw [Utf8.decode_encode]
    dsimp only
    rw [Json.parse_eq_ok.mpr ⟨raw, hraw, rfl⟩, ← hvalue]

/-- A value printed on a line of its own is a response. -/
theorem ofBytes_compact_line {v : Json} (h : v.depth ≤ Json.maxDepth) :
    ofBytes (Utf8.encode (v.compact ++ ['\n'])) = .ok ⟨v.reread.collated⟩ := by
  have htext := Json.denotes_render Json.Layout.isBlank_compact 0 v h
  refine ofBytes_eq_ok.mpr ⟨_, v.reread, rfl, ?_, rfl⟩
  have hbreak : ∀ c ∈ ['\n'], Text.isBlank c := by simp [Text.isBlank]
  rw [Json.compact, Json.trimEnd_of_denotes htext hbreak]
  exact Json.document_render Json.Layout.isBlank_compact 0 h

/-- The body is asked where the header has nothing acceptable. -/
theorem lookup_eq {α : Type} (response : Response) (key : String)
    (accept : Json → Option α) :
    response.lookup key accept =
      (((response.value.get? "header").bind (Json.get? key)).bind accept).or
        (((response.value.get? "body").bind (Json.get? key)).bind accept) := by
  simp only [lookup, List.findSome?_cons, List.findSome?_nil]
  cases ((response.value.get? "header").bind (Json.get? key)).bind accept with
  | some a => rfl
  | none => cases ((response.value.get? "body").bind (Json.get? key)).bind accept <;> rfl

end Response

namespace Json

@[simp] theorem reread_int64 (n : Int64) : (int64 n).reread = int64 n := by
  simp [int64, reread]

@[simp] theorem collated_int64 (n : Int64) : (int64 n).collated = int64 n := rfl

@[simp] theorem toMillis?_int64 (n : Int64) : (int64 n).toMillis? = some n := by
  have hrange : n.toInt < 0x8000000000000000 := n.toInt_lt
  rw [int64, toMillis?, Number.castMillis?, Number.toInt64?, if_pos hrange, Int64.ofInt_toInt]

end Json

end LatencyProbe
