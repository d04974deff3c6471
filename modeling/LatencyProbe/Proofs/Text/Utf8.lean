import LatencyProbe.Text.Utf8
import Mathlib.Data.List.Basic

/-!
# Texts and their bytes

`Sequence` lists the byte sequences of single characters with their characters. The reader takes
such a sequence off the front of its bytes or refuses them, and the writer writes the very same
sequences, so bytes are read as a text exactly if they are the bytes of that text.

Two consequences carry the treatment of answers that are cut short. A text whose bytes begin
another text's bytes begins that text, and a byte below 128 stands for a character of its own.
-/

namespace LatencyProbe

theorem map_eq_ok_iff {ε α β : Type} {f : α → β} {x : Except ε α} {b : β} :
    f <$> x = .ok b ↔ ∃ a, x = .ok a ∧ f a = b := by
  constructor
  · intro h
    cases x with
    | error fault => cases h
    | ok a => exact ⟨a, rfl, Except.ok.inj h⟩
  · rintro ⟨a, rfl, rfl⟩
    rfl

namespace Utf8

/-- The byte sequences of single characters, by their length. -/
inductive Sequence : List UInt8 → Char → Prop
  | one {a : UInt8} : a.toNat < 0x80 → Sequence [a] (Char.ofNat a.toNat)
  | two {a b : UInt8} : 0xC2 ≤ a.toNat → a.toNat < 0xE0 → isSecond a b →
      Sequence [a, b] (char2 a b)
  | three {a b c : UInt8} : 0xE0 ≤ a.toNat → a.toNat < 0xF0 → isSecond a b → isTail c →
      Sequence [a, b, c] (char3 a b c)
  | four {a b c d : UInt8} : 0xF0 ≤ a.toNat → a.toNat < 0xF5 → isSecond a b → isTail c →
      isTail d → Sequence [a, b, c, d] (char4 a b c d)

theorem isTail_iff {b : UInt8} : isTail b ↔ 0x80 ≤ b.toNat ∧ b.toNat < 0xC0 := by
  simp [isTail]

/-- The range of a second byte, with what four of the first bytes cut off from it. -/
theorem isSecond_iff {a b : UInt8} :
    isSecond a b ↔ 0x80 ≤ b.toNat ∧ b.toNat < 0xC0 ∧ (a.toNat = 0xE0 → 0xA0 ≤ b.toNat) ∧
      (a.toNat = 0xED → b.toNat < 0xA0) ∧ (a.toNat = 0xF0 → 0x90 ≤ b.toNat) ∧
      (a.toNat = 0xF4 → b.toNat < 0x90) := by
  unfold isSecond isTail
  split_ifs <;> simp only [Bool.and_eq_true, decide_eq_true_eq] <;> omega

/-- A sequence at the front is read as its character, whatever follows. -/
theorem decodeFrom_sequence {front : List UInt8} {c : Char} (h : Sequence front c) (i : Nat)
    (rest : List UInt8) :
    decodeFrom i (front ++ rest) = (c :: ·) <$> decodeFrom (i + front.length) rest := by
  cases h with
  | @one a ha =>
      rw [decodeFrom.eq_def]
      simp [ha]
  | @two a b ha ha' hb =>
      rw [decodeFrom.eq_def]
      simp [hb, ha', show ¬a.toNat < 0x80 by omega, Nat.not_lt.mpr ha]
  | @three a b c ha ha' hb hc =>
      rw [decodeFrom.eq_def]
      simp [hb, hc, ha', show ¬a.toNat < 0x80 by omega, show ¬a.toNat < 0xC2 by omega,
        Nat.not_lt.mpr ha]
  | @four a b c d ha ha' hb hc hd =>
      rw [decodeFrom.eq_def]
      simp [hb, hc, hd, ha', show ¬a.toNat < 0x80 by omega, show ¬a.toNat < 0xC2 by omega,
        show ¬a.toNat < 0xE0 by omega, Nat.not_lt.mpr ha]

/-- Bytes that are read are none, or begin with a sequence. -/
theorem decodeFrom_eq_ok {i : Nat} {bytes : List UInt8} {cs : List Char}
    (h : decodeFrom i bytes = .ok cs) :
    (bytes = [] ∧ cs = []) ∨ ∃ front c rest ds, bytes = front ++ rest ∧ cs = c :: ds ∧
      Sequence front c ∧ decodeFrom (i + front.length) rest = .ok ds := by
  revert h
  -- One case for each way to leave the reader; four of them have read a sequence.
  fun_cases decodeFrom i bytes <;> intro h
  case case1 => cases h; exact .inl ⟨rfl, rfl⟩
  case case2 a rest ha =>
      obtain ⟨ds, hds, rfl⟩ := map_eq_ok_iff.mp h
      exact .inr ⟨[a], _, rest, ds, rfl, rfl, .one ha, hds⟩
  case case5 a _ ha ha' b rest hb =>
      obtain ⟨ds, hds, rfl⟩ := map_eq_ok_iff.mp h
      exact .inr ⟨[a, b], _, rest, ds, rfl, rfl, .two (Nat.not_lt.mp ha) ha' hb, hds⟩
  case case9 a _ _ ha ha' b hb c rest hc =>
      obtain ⟨ds, hds, rfl⟩ := map_eq_ok_iff.mp h
      exact .inr ⟨[a, b, c], _, rest, ds, rfl, rfl, .three (Nat.not_lt.mp ha) ha' hb hc, hds⟩
  case case15 a _ _ _ ha ha' b hb c hc d rest hd =>
      obtain ⟨ds, hds, rfl⟩ := map_eq_ok_iff.mp h
      exact .inr ⟨[a, b, c, d], _, rest, ds, rfl, rfl,
        .four (Nat.not_lt.mp ha) ha' hb hc hd, hds⟩
  all_goals cases h

theorem toNat_ofNat {n : Nat} (h : n.isValidChar) : (Char.ofNat n).toNat = n := by
  rw [Char.ofNat, dif_pos h]
  rfl

/-- The sequence of a character is how it is written. -/
theorem encodeChar_of_sequence {front : List UInt8} {c : Char} (h : Sequence front c) :
    String.utf8EncodeChar c = front := by
  cases h with
  | @one a ha =>
      have code : (Char.ofNat a.toNat).val.toNat = a.toNat := toNat_ofNat (.inl (by omega))
      simp only [String.utf8EncodeChar, code]
      rw [if_pos (by omega), UInt8.ofNat_toNat]
  | @two a b ha ha' hb =>
      rw [isSecond_iff] at hb
      have code : (char2 a b).val.toNat = a.toNat % 32 * 64 + b.toNat % 64 :=
        toNat_ofNat (.inl (by omega))
      simp only [String.utf8EncodeChar, code]
      rw [if_neg (by omega), if_pos (by omega),
        show (a.toNat % 32 * 64 + b.toNat % 64) / 64 % 32 + 192 = a.toNat by omega,
        show (a.toNat % 32 * 64 + b.toNat % 64) % 64 + 128 = b.toNat by omega,
        UInt8.ofNat_toNat, UInt8.ofNat_toNat]
  | @three a b c ha ha' hb hc =>
      rw [isSecond_iff] at hb
      rw [isTail_iff] at hc
      have code : (char3 a b c).val.toNat =
          a.toNat % 16 * 4096 + b.toNat % 64 * 64 + c.toNat % 64 :=
        toNat_ofNat (by unfold Nat.isValidChar; omega)
      simp only [String.utf8EncodeChar, code]
      generalize hn : a.toNat % 16 * 4096 + b.toNat % 64 * 64 + c.toNat % 64 = n
      rw [if_neg (by omega), if_neg (by omega), if_pos (by omega),
        show n / 4096 % 16 + 224 = a.toNat by omega, show n / 64 % 64 + 128 = b.toNat by omega,
        show n % 64 + 128 = c.toNat by omega,
        UInt8.ofNat_toNat, UInt8.ofNat_toNat, UInt8.ofNat_toNat]
  | @four a b c d ha ha' hb hc hd =>
      rw [isSecond_iff] at hb
      rw [isTail_iff] at hc hd
      have code : (char4 a b c d).val.toNat =
          a.toNat % 8 * 262144 + b.toNat % 64 * 4096 + c.toNat % 64 * 64 + d.toNat % 64 :=
        toNat_ofNat (by unfold Nat.isValidChar; omega)
      simp only [String.utf8EncodeChar, code]
      generalize hn :
        a.toNat % 8 * 262144 + b.toNat % 64 * 4096 + c.toNat % 64 * 64 + d.toNat % 64 = n
      rw [if_neg (by omega), if_neg (by omega), if_neg (by omega),
        show n / 262144 % 8 + 240 = a.toNat by omega, show n / 4096 % 64 + 128 = b.toNat by omega,
        show n / 64 % 64 + 128 = c.toNat by omega, show n % 64 + 128 = d.toNat by omega,
        UInt8.ofNat_toNat, UInt8.ofNat_toNat, UInt8.ofNat_toNat, UInt8.ofNat_toNat]

/-- Every character is written as a sequence. -/
theorem sequence_encodeChar (c : Char) : Sequence (String.utf8EncodeChar c) c := by
  have byte {n : Nat} (h : n < 256) : (UInt8.ofNat n).toNat = n := UInt8.toNat_ofNat_of_lt' h
  have range : c.val.toNat < 0xD800 ∨ 0xDFFF < c.val.toNat ∧ c.val.toNat < 0x110000 := c.valid
  have back : Char.ofNat c.val.toNat = c := Char.ofNat_toNat c
  simp only [String.utf8EncodeChar]
  generalize c.val.toNat = n at range back
  split_ifs with h1 h2 h3
  · have ha : (UInt8.ofNat n).toNat = n := byte (by omega)
    have whole : Char.ofNat (UInt8.ofNat n).toNat = c := by rw [ha, back]
    exact whole ▸ .one (by omega)
  · have ha : (UInt8.ofNat (n / 64 % 32 + 192)).toNat = n / 64 % 32 + 192 := byte (by omega)
    have hb : (UInt8.ofNat (n % 64 + 128)).toNat = n % 64 + 128 := byte (by omega)
    have whole : char2 (.ofNat (n / 64 % 32 + 192)) (.ofNat (n % 64 + 128)) = c := by
      rw [char2, ha, hb, ← back]
      congr 1
      omega
    exact whole ▸ .two (by omega) (by omega) (isSecond_iff.mpr (by omega))
  · have ha : (UInt8.ofNat (n / 4096 % 16 + 224)).toNat = n / 4096 % 16 + 224 := byte (by omega)
    have hb : (UInt8.ofNat (n / 64 % 64 + 128)).toNat = n / 64 % 64 + 128 := byte (by omega)
    have hc : (UInt8.ofNat (n % 64 + 128)).toNat = n % 64 + 128 := byte (by omega)
    have whole : char3 (.ofNat (n / 4096 % 16 + 224)) (.ofNat (n / 64 % 64 + 128))
        (.ofNat (n % 64 + 128)) = c := by
      rw [char3, ha, hb, hc, ← back]
      congr 1
      omega
    exact whole ▸ .three (by omega) (by omega) (isSecond_iff.mpr (by omega))
      (isTail_iff.mpr (by omega))
  · have ha : (UInt8.ofNat (n / 262144 % 8 + 240)).toNat = n / 262144 % 8 + 240 :=
      byte (by omega)
    have hb : (UInt8.ofNat (n / 4096 % 64 + 128)).toNat = n / 4096 % 64 + 128 := byte (by omega)
    have hc : (UInt8.ofNat (n / 64 % 64 + 128)).toNat = n / 64 % 64 + 128 := byte (by omega)
    have hd : (UInt8.ofNat (n % 64 + 128)).toNat = n % 64 + 128 := byte (by omega)
    have whole : char4 (.ofNat (n / 262144 % 8 + 240)) (.ofNat (n / 4096 % 64 + 128))
        (.ofNat (n / 64 % 64 + 128)) (.ofNat (n % 64 + 128)) = c := by
      rw [char4, ha, hb, hc, hd, ← back]
      congr 1
      omega
    exact whole ▸ .four (by omega) (by omega) (isSecond_iff.mpr (by omega))
      (isTail_iff.mpr (by omega)) (isTail_iff.mpr (by omega))

theorem decodeFrom_encode_append (i : Nat) (cs : List Char) (rest : List UInt8) :
    decodeFrom i (encode cs ++ rest) = (cs ++ ·) <$> decodeFrom (i + (encode cs).length) rest := by
  induction cs generalizing i with
  | nil => cases h : decodeFrom i rest <;> simp [h]
  | cons c cs ih =>
      rw [encode_cons, List.append_assoc, decodeFrom_sequence (sequence_encodeChar c), ih,
        List.length_append, Nat.add_assoc]
      cases decodeFrom (i + ((String.utf8EncodeChar c).length + (encode cs).length)) rest <;> rfl

@[simp] theorem decode_encode (cs : List Char) : decode (encode cs) = .ok cs := by
  have h := decodeFrom_encode_append 0 cs []
  simpa [decode, decodeFrom] using h

theorem encode_of_decodeFrom {i : Nat} {bytes : List UInt8} {cs : List Char}
    (h : decodeFrom i bytes = .ok cs) : encode cs = bytes := by
  induction cs generalizing i bytes with
  | nil =>
      obtain ⟨rfl, -⟩ | ⟨_, _, _, _, _, hcs, _⟩ := decodeFrom_eq_ok h
      · rfl
      · cases hcs
  | cons c cs ih =>
      obtain ⟨-, hcs⟩ | ⟨front, _, rest, _, rfl, hcs, hfront, hrest⟩ := decodeFrom_eq_ok h
      · cases hcs
      · cases hcs
        rw [encode_cons, encodeChar_of_sequence hfront, ih hrest]

/-- Bytes are read as a text exactly if they are the bytes of that text. -/
theorem decode_eq_ok_iff {bytes : List UInt8} {cs : List Char} :
    decode bytes = .ok cs ↔ bytes = encode cs :=
  ⟨fun h => (encode_of_decodeFrom h).symm, fun h => h ▸ decode_encode cs⟩

/-- A text whose bytes begin another text's bytes begins that text. -/
theorem prefix_of_encode_prefix {cs ds : List Char} (h : encode ds <+: encode cs) : ds <+: cs := by
  obtain ⟨rest, hrest⟩ := h
  have hd : decode (encode ds ++ rest) = .ok cs := by rw [hrest, decode_encode]
  rw [decode, decodeFrom_encode_append, map_eq_ok_iff] at hd
  obtain ⟨es, -, rfl⟩ := hd
  exact List.prefix_append ds es

/-- A byte below 128 is a character by itself. -/
theorem exists_mem_of_mem_encode {cs : List Char} {b : UInt8} (h : b ∈ encode cs)
    (small : b.toNat < 0x80) : ∃ c ∈ cs, c.toNat = b.toNat := by
  obtain ⟨c, hc, hb⟩ := List.mem_flatMap.mp h
  refine ⟨c, hc, ?_⟩
  have hseq := sequence_encodeChar c
  generalize String.utf8EncodeChar c = front at hb hseq
  cases hseq with
  | one ha =>
      obtain rfl := List.mem_singleton.mp hb
      exact toNat_ofNat (.inl (by omega))
  | two ha _ hs =>
      rw [isSecond_iff] at hs
      simp only [List.mem_cons, List.not_mem_nil, or_false] at hb
      rcases hb with rfl | rfl <;> omega
  | three ha _ hs ht =>
      rw [isSecond_iff] at hs
      rw [isTail_iff] at ht
      simp only [List.mem_cons, List.not_mem_nil, or_false] at hb
      rcases hb with rfl | rfl | rfl <;> omega
  | four ha _ hs ht hu =>
      rw [isSecond_iff] at hs
      rw [isTail_iff] at ht hu
      simp only [List.mem_cons, List.not_mem_nil, or_false] at hb
      rcases hb with rfl | rfl | rfl | rfl <;> omega

end Utf8
end LatencyProbe
