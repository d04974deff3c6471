import LatencyProbe.Proofs.Json.Printing

/-!
# Lines of a pretty text

A value with an item a line begins each of its lines with a blank, a bracket or the first character
of a value, whatever strings it holds, for a line break inside a string is escaped. So no line of it
begins with a capital letter.
-/

namespace LatencyProbe.Json

/-- Behind every line break stands a character, and it is no capital letter. -/
def Indented (text : List Char) : Prop :=
  ∀ before after, text = before ++ '\n' :: after → ∃ c more, after = c :: more ∧ c.isUpper = false

namespace Indented

variable {front text : List Char} {c : Char}

theorem append (hf : Indented front) (h : Indented text) : Indented (front ++ text) := by
  intro before after heq
  rcases List.append_eq_append_iff.mp heq with ⟨middle, rfl, hmiddle⟩ | ⟨middle, hmiddle, hafter⟩
  · exact h middle after hmiddle
  · cases middle with
    | nil => exact h [] after hafter.symm
    | cons d middle =>
        obtain ⟨rfl, rfl⟩ := List.cons.inj hafter
        obtain ⟨c, more, rfl, hc⟩ := hf before middle hmiddle
        exact ⟨c, more ++ text, rfl, hc⟩

theorem cons (hc : c ≠ '\n') (h : Indented text) : Indented (c :: text) := by
  intro before after heq
  cases before with
  | nil => exact absurd (List.cons.inj heq).1 hc
  | cons d before => exact h before after (List.cons.inj heq).2

/-- A line break in front of a text that does not begin with a capital letter. -/
theorem lineBreak (hc : c.isUpper = false) (h : Indented (c :: text)) :
    Indented ('\n' :: c :: text) := by
  intro before after heq
  cases before with
  | nil => exact ⟨c, text, (List.cons.inj heq).2.symm, hc⟩
  | cons d before => exact h before after (List.cons.inj heq).2

end Indented

theorem Printable.indented {text : List Char} (h : Printable text) : Indented text := by
  rintro before after rfl
  exact absurd (h '\n' (by simp)) (by decide)

theorem isUpper_of_startsNumber {c : Char} (h : startsNumber c) : c.isUpper = false := by
  rw [startsNumber, Bool.or_eq_true, decide_eq_true_eq] at h
  rcases h with rfl | hdigit
  · rfl
  · have hcode := Char.isDigit_iff_toNat.mp hdigit
    have hnine : '9'.toNat = 57 := rfl
    refine decide_eq_false fun hcapital => ?_
    have hle : 65 ≤ c.toNat := UInt32.le_iff_toNat_le.mp hcapital.1
    omega

theorem exists_head_render (layout : Layout) (n : Nat) (v : Json) :
    ∃ c more, render layout n v = c :: more ∧ c.isUpper = false := by
  cases v with
  | null => exact ⟨_, _, rfl, rfl⟩
  | bool b => cases b <;> exact ⟨_, _, rfl, rfl⟩
  | number m =>
      obtain ⟨l, htext, -⟩ := exists_lexeme m
      obtain ⟨c, more, hc, hstart⟩ := Scan.startsNumber_of_numberText htext
      exact ⟨c, more, hc, isUpper_of_startsNumber hstart⟩
  | string s => exact ⟨_, _, rfl, rfl⟩
  | array items => cases items <;> exact ⟨_, _, rfl, rfl⟩
  | object members => cases members <;> exact ⟨_, _, rfl, rfl⟩

/-- What stands in front of an item. -/
theorem indented_line (n : Nat) : Indented (Layout.pretty.line (n + 1)) := by
  have hblanks : Indented (' ' :: List.replicate (2 * n + 1) ' ') := by
    apply Printable.indented
    intro c hc
    rw [← List.replicate_succ] at hc
    rw [List.eq_of_mem_replicate hc]
    decide
  exact hblanks.lineBreak rfl

/-- What stands at the end of a container. -/
theorem indented_close (n : Nat) {c : Char} (hc : c.isUpper = false) (hvisible : 0x20 ≤ c.toNat) :
    Indented (Layout.pretty.line n ++ [c]) := by
  have hclose : Indented [c] := (Printable.cons hvisible .nil).indented
  cases n with
  | zero => exact hclose.lineBreak hc
  | succ n => exact (indented_line n).append hclose

theorem indented_key (key : String) : Indented (quote key ++ [':', ' ']) := by
  apply Printable.indented
  exact (printable_stringText (stringText_quote key)).append
    (.cons (by decide) (.cons (by decide) .nil))

mutual

theorem indented_render (n : Nat) (v : Json) : Indented (render .pretty n v) := by
  cases v with
  | null => exact (printable_render n .null).indented
  | bool b =>
      cases b with
      | false => exact (printable_render n (.bool false)).indented
      | true => exact (printable_render n (.bool true)).indented
  | number m => exact (printable_number m).indented
  | string s => exact (printable_stringText (stringText_quote s)).indented
  | array items =>
      cases items with
      | nil => exact (printable_render n (.array [])).indented
      | cons item rest =>
          exact .cons (by decide) (((indented_line n).append (indented_render (n + 1) item)).append
            (indented_renderItems n rest))
  | object members =>
      cases members with
      | nil => exact (printable_render n (.object [])).indented
      | cons member rest =>
          obtain ⟨key, value⟩ := member
          have hkey := (indented_line n).append (indented_key key)
          rw [← List.append_assoc] at hkey
          exact .cons (by decide) ((hkey.append (indented_render (n + 1) value)).append
            (indented_renderMembers n rest))

theorem indented_renderItems (n : Nat) (rest : List Json) :
    Indented (renderItems .pretty n rest) := by
  cases rest with
  | nil => exact indented_close n rfl (by decide)
  | cons item rest =>
      exact .cons (by decide) (((indented_line n).append (indented_render (n + 1) item)).append
        (indented_renderItems n rest))

theorem indented_renderMembers (n : Nat) (rest : List (String × Json)) :
    Indented (renderMembers .pretty n rest) := by
  cases rest with
  | nil => exact indented_close n rfl (by decide)
  | cons member rest =>
      obtain ⟨key, value⟩ := member
      have hkey := (indented_line n).append (indented_key key)
      rw [← List.append_assoc] at hkey
      exact .cons (by decide) ((hkey.append (indented_render (n + 1) value)).append
        (indented_renderMembers n rest))

end

/-- A line is what a text begins with, or what stands behind one of its breaks. -/
theorem prefix_or_of_mem_splitOn {line text : List Char} (h : line ∈ text.splitOn '\n') :
    line <+: text ∨ ∃ before after, text = before ++ '\n' :: after ∧ line <+: after := by
  by_cases hbreak : '\n' ∈ text
  · obtain ⟨front, back, htext, hfront⟩ := List.eq_append_cons_of_mem hbreak
    rw [htext, List.splitOn_append_cons_self_of_not_mem hfront, List.mem_cons] at h
    rw [htext]
    rcases h with rfl | hback
    · exact .inl (List.prefix_append _ _)
    · right
      rcases prefix_or_of_mem_splitOn hback with hfirst | ⟨before, after, rfl, hline⟩
      · exact ⟨front, back, rfl, hfirst⟩
      · exact ⟨front ++ '\n' :: before, after, by simp, hline⟩
  · rw [List.splitOn_eq_singleton hbreak, List.mem_singleton] at h
    exact .inl (h ▸ List.prefix_refl line)
termination_by text.length
decreasing_by
  rw [htext, List.length_append, List.length_cons]
  omega

/-- No line of a pretty text begins with a capital letter. -/
theorem isUpper_of_mem_head? {line : List Char} {v : Json} (h : line ∈ v.pretty.splitOn '\n') :
    ∀ c ∈ line.head?, c.isUpper = false := by
  have hhead {text : List Char} (hline : line <+: text)
      (htext : ∃ c more, text = c :: more ∧ c.isUpper = false) :
      ∀ c ∈ line.head?, c.isUpper = false := by
    obtain ⟨c, more, rfl, hc⟩ := htext
    intro d hd
    obtain ⟨tail, rfl⟩ := List.head?_eq_some_iff.mp hd
    rwa [(List.cons_prefix_cons.mp hline).1]
  rcases prefix_or_of_mem_splitOn h with hfirst | ⟨before, after, htext, hline⟩
  · exact hhead hfirst (exists_head_render .pretty 0 v)
  · exact hhead hline (indented_render 0 v before after htext)

end LatencyProbe.Json
