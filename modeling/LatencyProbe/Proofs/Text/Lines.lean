/-!
# Texts cut into lines

Cutting a text at its line breaks undoes joining lines by breaks, except that a line which holds
breaks itself is cut as well.
-/

namespace LatencyProbe.Text

/-- The lines of a text, without their breaks. -/
def lines (text : String) : List String := (text.toList.splitOn '\n').map String.ofList

variable {s line front : String}

theorem lines_of_notMem (h : '\n' ∉ s.toList) : lines s = [s] := by
  rw [lines, List.splitOn_eq_singleton h, List.map_singleton, String.ofList_toList]

theorem splitOn_append {α : Type} [DecidableEq α] {a : α} {front : List α} (h : a ∉ front)
    (rest : List α) : (front ++ rest).splitOn a = (rest.splitOn a).modifyHead (front ++ ·) := by
  induction front with
  | nil =>
      rw [List.nil_append]
      cases rest.splitOn a <;> rfl
  | cons b front ih =>
      have hb : (b == a) = false := beq_false_of_ne (List.ne_of_not_mem_cons h).symm
      rw [List.cons_append, List.splitOn_cons_eq_if_modifyHead, hb,
        ih (List.not_mem_of_not_mem_cons h)]
      cases rest.splitOn a <;> rfl

theorem flatMap_lines_of_notMem {ls : List String} (h : ∀ line ∈ ls, '\n' ∉ line.toList) :
    ls.flatMap lines = ls := by
  induction ls with
  | nil => rfl
  | cons line ls ih =>
      obtain ⟨hline, hrest⟩ := List.forall_mem_cons.mp h
      rw [List.flatMap_cons, lines_of_notMem hline, ih hrest, List.singleton_append]

/-- What stands in front of a text is on its first line. -/
theorem exists_lines_append (h : '\n' ∉ front.toList) (s : String) :
    ∃ first, lines (front ++ s) = (front ++ first) :: (lines s).tail := by
  obtain ⟨first, more, hlines⟩ := List.exists_cons_of_ne_nil (List.splitOn_ne_nil '\n' s.toList)
  refine ⟨String.ofList first, ?_⟩
  rw [lines, String.toList_append, splitOn_append h, lines, hlines]
  simp

theorem toList_intercalate_cons_cons (l l' : String) (ls : List String) :
    ("\n".intercalate (l :: l' :: ls)).toList =
      l.toList ++ '\n' :: ("\n".intercalate (l' :: ls)).toList := by
  simp [String.intercalate_cons_cons]

theorem lines_intercalate {ls : List String} (h : ls ≠ []) :
    lines ("\n".intercalate ls) = ls.flatMap lines := by
  induction ls with
  | nil => exact absurd rfl h
  | cons l ls ih =>
      cases ls with
      | nil => simp
      | cons l' ls =>
          have hrest := ih (List.cons_ne_nil l' ls)
          rw [List.flatMap_cons, ← hrest, lines, toList_intercalate_cons_cons,
            List.splitOn_append_cons_self, List.map_append, lines, lines]

end LatencyProbe.Text
