import LatencyProbe.Proofs.Json.Numerals
import LatencyProbe.Proofs.Json.Printing
import LatencyProbe.Proofs.Json.Scanning

/-!
# What a document is refused for

Reading a value asks nothing of a document but that it is one, so a text is refused for a fault of
its own, and always at a place in it. The messages for such faults are fixed words and numbers:
nothing of the text is quoted in them, and none has a control character.
-/

namespace LatencyProbe.Json

/-- A fault of the text itself, and not of what it says. -/
def Problem.OfText : Problem → Prop
  | .wrongType .. | .outOfRange .. | .unknownVariant .. | .missingField .. | .repeatedField ..
  | .wrongLength .. | .noVariant .. => False
  | _ => True

namespace Scan

variable {α β : Type} {s : List Char}

/-- A reading that fails only for faults of the text, each at its place. -/
def BlamesText (r : Except Fault β) : Prop :=
  ∀ fault, r = .error fault → ∃ problem left, fault = .placed problem left ∧ problem.OfText

/-- A scan that refuses any text only for faults of that text. -/
def Blames (x : Scan α) : Prop := ∀ s, BlamesText (x s)

@[simp] theorem blamesText_ok (b : β) : BlamesText (.ok b) := by
  intro fault h
  cases h

@[simp] theorem blamesText_placed {problem : Problem} {left : Nat} :
    BlamesText (.error (.placed problem left) : Except Fault β) ↔ problem.OfText := by
  constructor
  · intro h
    obtain ⟨_, _, heq, hproblem⟩ := h _ rfl
    cases heq
    exact hproblem
  · intro hproblem fault h
    cases h
    exact ⟨problem, left, rfl, hproblem⟩

@[simp] theorem blamesText_refuse {problem : Problem} :
    BlamesText (refuse (α := α) problem s) ↔ problem.OfText := blamesText_placed

@[simp] theorem blamesText_refuseNext {problem : Problem} :
    BlamesText (refuseNext (α := α) problem s) ↔ problem.OfText := blamesText_placed

theorem blamesText_bind {x : Scan α} {f : α → Scan β} (hx : BlamesText (x s))
    (hf : ∀ a, Blames (f a)) : BlamesText ((x >>= f) s) := by
  intro fault h
  change (x s >>= fun p => f p.1 p.2) = .error fault at h
  cases hread : x s with
  | error fault' =>
      rw [hread] at h
      cases h
      exact hx fault hread
  | ok p =>
      rw [hread] at h
      exact hf p.1 p.2 fault h

theorem blames_pure (a : α) : Blames (pure a) := fun s => blamesText_ok (a, s)

theorem Blames.bind {x : Scan α} {f : α → Scan β} (hx : Blames x) (hf : ∀ a, Blames (f a)) :
    Blames (x >>= f) :=
  fun s => blamesText_bind (hx s) hf

theorem Blames.map {x : Scan α} (hx : Blames x) (f : α → β) : Blames (f <$> x) := by
  rw [map_eq_pure_bind]
  exact hx.bind fun a => blames_pure (f a)

theorem blames_enclosed {inside : Scan α} (h : Blames inside) : Blames (enclosed inside) := by
  have hskip : Blames skipOne := fun s => blamesText_ok _
  exact hskip.bind fun _ => h.bind fun a => hskip.bind fun _ => blames_pure a

theorem blames_itemsUpTo {more : Bool → Scan Bool} {item : Scan α} (hmore : ∀ b, Blames (more b))
    (hitem : Blames item) (n : Nat) (isFirst : Bool) : Blames (itemsUpTo more item n isFirst) := by
  induction n generalizing isFirst with
  | zero => exact fun s => blamesText_refuse.mpr trivial
  | succ n ih =>
      refine (hmore isFirst).bind fun again => ?_
      cases again with
      | false => exact blames_pure []
      | true => exact hitem.bind fun a => (ih false).bind fun as => blames_pure (a :: as)

theorem blames_items {more : Bool → Scan Bool} {item : Scan α} (hmore : ∀ b, Blames (more b))
    (hitem : Blames item) : Blames (items more item) :=
  fun s => blames_itemsUpTo hmore hitem _ true s

theorem blames_literal (cs : List Char) : Blames (literal cs) := by
  induction cs with
  | nil => exact blames_pure ()
  | cons c cs ih =>
      intro s
      cases s with
      | nil => exact blamesText_refuse.mpr trivial
      | cons d rest =>
          change BlamesText (if d = c then literal cs rest else _)
          split_ifs
          · exact ih _
          · simp [Problem.OfText]

theorem blames_colon : Blames colon := by
  intro s
  rw [colon]
  split
  · simp [Problem.OfText]
  · split_ifs <;> simp [Problem.OfText]

theorem blames_moreItems (isFirst : Bool) : Blames (moreItems isFirst) := by
  intro s
  rw [moreItems]
  split
  · simp [Problem.OfText]
  · split_ifs
    · simp
    · simp
    · split
      · simp [Problem.OfText]
      · split_ifs <;> simp [Problem.OfText]
    · simp [Problem.OfText]

theorem blames_moreMembers (isFirst : Bool) : Blames (moreMembers isFirst) := by
  intro s
  rw [moreMembers]
  split
  · simp [Problem.OfText]
  · split_ifs
    · simp
    · simp
    · simp [Problem.OfText]
    · split
      · simp [Problem.OfText]
      · split_ifs <;> simp [Problem.OfText]
    · simp [Problem.OfText]

theorem blamesText_refuseFour : BlamesText (refuseFour (α := α) s) := by
  change BlamesText (if Utf8.size s < 4 then _ else _)
  split_ifs <;> simp [Problem.OfText]

theorem blames_hexFour : Blames hexFour := by
  intro s
  unfold hexFour
  split
  · split
    · simp
    · exact blamesText_refuseFour
  · exact blamesText_refuseFour

theorem blames_pairMark (mark : Char) : Blames (pairMark mark) := by
  intro s
  cases s with
  | nil => exact blamesText_refuse.mpr trivial
  | cons c rest =>
      rw [pairMark]
      split_ifs <;> simp [Problem.OfText]

theorem blames_unicodeEscape : Blames unicodeEscape := by
  have hlone : Blames (refuse (α := Char) .loneSurrogate) :=
    fun s => blamesText_refuse.mpr trivial
  refine blames_hexFour.bind fun n => ?_
  split_ifs
  · exact hlone
  · refine (blames_pairMark _).bind fun _ => (blames_pairMark _).bind fun _ =>
      blames_hexFour.bind fun trailing => ?_
    split_ifs
    · exact blames_pure _
    · exact hlone
  · exact blames_pure _

theorem blames_escapeSequence : Blames escapeSequence := by
  intro s
  cases s with
  | nil => exact blamesText_refuse.mpr trivial
  | cons c rest =>
      rw [escapeSequence]
      split_ifs
      · exact blames_unicodeEscape rest
      · split <;> simp [Problem.OfText]

theorem blames_character : Blames character := by
  intro s
  cases s with
  | nil => exact blamesText_refuse.mpr trivial
  | cons c rest =>
      rw [character]
      split_ifs
      · exact blames_escapeSequence rest
      · simp [Problem.OfText]
      · simp

theorem blames_moreCharacters (isFirst : Bool) : Blames (moreCharacters isFirst) := by
  intro s
  cases s with
  | nil => exact blamesText_refuse.mpr trivial
  | cons c rest => exact blamesText_ok _

theorem blames_quoted : Blames quoted :=
  (blames_enclosed (blames_items blames_moreCharacters blames_character)).map _

section Numbers

variable {atEnd : Problem} (h : atEnd.OfText)

include h

theorem blames_someDigits : Blames (someDigits atEnd) := by
  intro s
  rw [someDigits]
  split
  · split_ifs
    · exact blamesText_refuse.mpr h
    · exact blamesText_refuseNext.mpr trivial
  · exact blamesText_ok _

theorem blames_wholeDigits : Blames (wholeDigits atEnd) := by
  intro s
  unfold wholeDigits
  split
  · split_ifs <;> simp [Problem.OfText]
  · exact blames_someDigits h _

theorem blames_fractionDigits : Blames (fractionDigits atEnd) := by
  intro s
  unfold fractionDigits
  split
  · exact blames_someDigits h _
  · simp

theorem blames_exponentPart : Blames (exponentPart atEnd) := by
  have hsign : Blames exponentSign := by
    intro s
    unfold exponentSign
    split <;> simp
  have hdigits : Blames (exponentDigits atEnd) :=
    hsign.bind fun _ => (blames_someDigits h).bind fun _ => blames_pure _
  intro s
  cases s with
  | nil => exact blamesText_ok _
  | cons c rest =>
      rw [exponentPart]
      split_ifs
      · exact hdigits.map some rest
      · simp

theorem blames_lexeme : Blames (lexeme atEnd) := by
  have hsign : Blames minusSign := by
    intro s
    unfold minusSign
    split <;> simp
  exact hsign.bind fun _ => (blames_wholeDigits h).bind fun _ =>
    (blames_fractionDigits h).bind fun _ => (blames_exponentPart h).bind fun _ => blames_pure _

end Numbers

theorem blames_number : Blames number := by
  have hlexeme : Blames (lexeme .valueUnfinished) := blames_lexeme trivial
  refine hlexeme.bind fun l => ?_
  split
  · exact blames_pure _
  · exact fun s => blamesText_placed.mpr trivial

theorem blames_kinds {kinds : Kinds α} (hnumber : Blames kinds.number)
    (hstring : Blames kinds.string) (harray : Blames kinds.array) (hobject : Blames kinds.object) :
    Blames kinds.scan := by
  intro s
  rw [Kinds.scan]
  split
  · simp [Problem.OfText]
  · split_ifs
    · exact (blames_literal _).bind (fun _ => blames_pure _) _
    · exact (blames_literal _).bind (fun _ => blames_pure _) _
    · exact (blames_literal _).bind (fun _ => blames_pure _) _
    · exact hnumber _
    · exact hstring _
    · exact harray _
    · exact hobject _
    · simp [Problem.OfText]

theorem blames_member {value : Scan Json} (h : Blames value) : Blames (member value) :=
  blames_quoted.bind fun _ => blames_colon.bind fun _ => h.bind fun _ => blames_pure _

theorem blames_value (depth : Nat) : Blames (value depth) := by
  have hnumber := blames_number.map Json.number
  have hstring := blames_quoted.map Json.string
  induction depth with
  | zero =>
      have hdeep : Blames (refuseNext (α := Json) .tooDeep) :=
        fun s => blamesText_refuseNext.mpr trivial
      exact blames_kinds hnumber hstring hdeep hdeep
  | succ depth ih =>
      have harray := (blames_enclosed (blames_items blames_moreItems ih)).map Json.array
      have hobject :=
        (blames_enclosed (blames_items blames_moreMembers (blames_member ih))).map Json.object
      exact blames_kinds hnumber hstring harray hobject

theorem blames_finish : Blames finish := by
  intro s
  rw [finish]
  split <;> simp [Problem.OfText]

end Scan

/-- A text that is no document is refused for a fault of its own, at a place. -/
theorem ofText_of_parse {text : List Char} {error : Error} (h : parse text = .error error) :
    error.problem.OfText ∧ ∃ place, error.position = some place := by
  have hraw : parseRaw text = .error error := by
    rw [parse] at h
    cases hread : parseRaw text with
    | error error' =>
        rw [hread] at h
        cases h
        rfl
    | ok v =>
        rw [hread] at h
        cases h
  have hblames : Scan.Blames (do let v ← Scan.value maxDepth; Scan.finish; return v) :=
    (Scan.blames_value maxDepth).bind fun v => Scan.blames_finish.bind fun _ => Scan.blames_pure v
  rw [parseRaw, Scan.onDocument] at hraw
  split at hraw
  · cases hraw
  next problem left hfault =>
    obtain ⟨_, _, heq, hproblem⟩ := hblames text _ hfault
    cases heq
    cases hraw
    exact ⟨hproblem, _, rfl⟩
  next problem rest hfault =>
    obtain ⟨_, _, heq, -⟩ := hblames text _ hfault
    cases heq

/-- For words of the program itself, both hypotheses hold by definition. -/
theorem printable_words {words : String} {text : List Char} (h : words = String.ofList text)
    (hall : text.all (0x20 ≤ ·.toNat)) : Printable words.toList := by
  rw [h, String.toList_ofList]
  intro c hc
  exact of_decide_eq_true (List.all_eq_true.mp hall c hc)

theorem printable_toList_append {s t : String} (hs : Printable s.toList)
    (ht : Printable t.toList) : Printable (s ++ t).toList := by
  rw [String.toList_append]
  exact hs.append ht

theorem printable_ofInt (n : Int) : Printable (Text.ofInt n).toList := by
  have hdigits (k : Nat) : Printable (Nat.toDigits 10 k) := by
    intro c hc
    exact (visible_of_mem_digits (digits_toDigits k) c hc).1.le
  rw [Text.toList_ofInt]
  cases n with
  | ofNat n => exact hdigits n
  | negSucc n => exact .cons (by decide) (hdigits (n + 1))

theorem Problem.printable_message {problem : Problem} (h : problem.OfText) :
    Printable problem.message.toList := by
  cases problem <;> first | exact h.elim | exact printable_words rfl rfl

/-- The message for a text that is no document is one line, whatever the text is. -/
theorem printable_message_of_parse {text : List Char} {error : Error}
    (h : parse text = .error error) : Printable error.message.toList := by
  obtain ⟨hproblem, place, hplace⟩ := ofText_of_parse h
  have hwords := Problem.printable_message hproblem
  have hline : Printable " at line ".toList := printable_words rfl rfl
  have hcolumn : Printable " column ".toList := printable_words rfl rfl
  rw [Error.message, hplace]
  apply printable_toList_append _ (printable_ofInt _)
  apply printable_toList_append _ hcolumn
  apply printable_toList_append _ (printable_ofInt _)
  exact printable_toList_append hwords hline

end LatencyProbe.Json
