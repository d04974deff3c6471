import LatencyProbe.Proofs.Json.Indentation
import LatencyProbe.Proofs.Text.Decimal
import LatencyProbe.Proofs.Text.Lines
import LatencyProbe.Report

/-!
# Lines that bear a verdict

A report tells its verdicts on lines of their own, and whoever reads it looks for their labels. The
response can put no such line into it, for no line of a pretty text begins with a capital letter.
An echoed id can: it is printed as it is, so what stands behind a line break of it stands on lines
that it makes up. These are the stray lines. All of them come before the verdicts of the report on a
move, but after the one of the report on a join, whose last line they may be.
-/

namespace LatencyProbe.Report

/-- The lines that begin with a label. -/
def labelled (label : String) (lines : List String) : List String :=
  lines.filter fun line => label.toList.isPrefixOf line.toList

/-- The labels of the verdicts on a move. -/
def verdictLabels : List String := ["RequestId match:", "RequestId sync:", "Timestamp sync:"]

/-- How all other lines of a report begin that have a text of its own. -/
def otherLabels : List String :=
  ["Received response:", "Lag compensation analysis:", "Original requestId:", "Echoed requestId:",
   "Client", "Server", "Timing:", "Total round trip time:", "Incomplete data"]

/-- Neither of two labels begins with the other, so no line begins with both. -/
def Apart (label other : String) : Prop :=
  ¬label.toList <+: other.toList ∧ ¬other.toList <+: label.toList

instance (label other : String) : Decidable (Apart label other) := inferInstanceAs (Decidable (_ ∧ _))

variable {label other line front rest : String} {ls : List String}

theorem labelled_append (label : String) (ls ls' : List String) :
    labelled label (ls ++ ls') = labelled label ls ++ labelled label ls' :=
  List.filter_append ls ls'

theorem labelled_cons_of_begins (h : label.toList <+: line.toList) :
    labelled label (line :: ls) = line :: labelled label ls :=
  List.filter_cons_of_pos (List.isPrefixOf_iff_prefix.mpr h)

theorem labelled_cons_of_not_begins (h : ¬label.toList <+: line.toList) :
    labelled label (line :: ls) = labelled label ls :=
  List.filter_cons_of_neg (mt List.isPrefixOf_iff_prefix.mp h)

theorem prefix_append (front rest : String) : front.toList <+: (front ++ rest).toList := by
  rw [String.toList_append]
  exact List.prefix_append _ _

theorem Apart.not_begins (h : Apart label other) (hother : other.toList <+: line.toList) :
    ¬label.toList <+: line.toList := by
  intro hlabel
  exact (List.prefix_or_prefix_of_prefix hlabel hother).elim h.1 h.2

theorem labelled_cons_append_of_begins (h : label.toList <+: front.toList) :
    labelled label ((front ++ rest) :: ls) = (front ++ rest) :: labelled label ls :=
  labelled_cons_of_begins (h.trans (prefix_append front rest))

theorem labelled_cons_append_of_apart (h : Apart label front) :
    labelled label ((front ++ rest) :: ls) = labelled label ls :=
  labelled_cons_of_not_begins (h.not_begins (prefix_append front rest))

theorem notMem_toList_append (hfront : '\n' ∉ front.toList) (hrest : '\n' ∉ rest.toList) :
    '\n' ∉ (front ++ rest).toList := by
  rw [String.toList_append, List.mem_append]
  exact not_or.mpr ⟨hfront, hrest⟩

theorem notMem_ofInt (n : Int) : '\n' ∉ (Text.ofInt n).toList := by
  rw [Text.toList_ofInt]
  exact Text.notMem_decimal (by decide) rfl n

theorem notMem_orNone_millis (t : Option Int64) : '\n' ∉ (orNone (t.map millis)).toList := by
  cases t with
  | none => decide
  | some t => exact notMem_ofInt t.toInt

/-- None of the lines that a text has bears the label of a verdict. -/
def Silent (text : String) : Prop :=
  ∀ label ∈ verdictLabels, labelled label (Text.lines text) = []

namespace Silent

theorem empty : Silent "" := by
  unfold Silent
  decide

theorem of_begins (other : String) (hother : other ∈ otherLabels)
    (h : other.toList <+: line.toList) (hline : '\n' ∉ line.toList) : Silent line := by
  have hapart : ∀ label ∈ verdictLabels, ∀ other ∈ otherLabels, Apart label other := by
    decide +kernel
  intro label hlabel
  rw [Text.lines_of_notMem hline,
    labelled_cons_of_not_begins ((hapart label hlabel other hother).not_begins h)]
  rfl

theorem append (other : String) (hother : other ∈ otherLabels)
    (hfront : other.toList <+: front.toList) (hline : '\n' ∉ front.toList)
    (hrest : '\n' ∉ rest.toList) : Silent (front ++ rest) :=
  of_begins other hother (hfront.trans (prefix_append front rest))
    (notMem_toList_append hline hrest)

theorem of_mem_latency {l : Latency} (h : line ∈ l.lines) : Silent line := by
  have hms (n : Int) : '\n' ∉ (Text.ofInt n ++ " ms").toList :=
    notMem_toList_append (notMem_ofInt n) (by decide)
  simp only [Latency.lines, String.append_assoc, List.mem_cons, List.not_mem_nil, or_false] at h
  rcases h with rfl | rfl | rfl | rfl
  · exact append "Client" (by decide) (by decide) (by decide) (hms _)
  · exact append "Server" (by decide) (by decide) (by decide) (hms _)
  · exact append "Server" (by decide) (by decide) (by decide) (hms _)
  · exact append "Total round trip time:" (by decide) (by decide) (by decide) (hms _)

/-- The lines of a response begin with no capital letter, and all labels do. -/
theorem pretty (response : Response) : Silent response.pretty := by
  intro label hlabel
  obtain ⟨c, more, hlabel, hupper⟩ : ∃ c more, label.toList = c :: more ∧ c.isUpper := by
    simp only [verdictLabels, List.mem_cons, List.not_mem_nil, or_false] at hlabel
    rcases hlabel with rfl | rfl | rfl <;> exact ⟨_, _, rfl, rfl⟩
  refine List.filter_eq_nil_iff.mpr fun line hline hprefix => ?_
  obtain ⟨chars, hchars, rfl⟩ := List.mem_map.mp hline
  rw [Response.pretty, String.toList_ofList] at hchars
  rw [String.toList_ofList, List.isPrefixOf_iff_prefix] at hprefix
  obtain ⟨tail, rfl⟩ := hprefix
  rw [hlabel] at hchars
  rw [Json.isUpper_of_mem_head? hchars c rfl] at hupper
  cases hupper

end Silent

theorem labelled_flatMap_of_silent (hlabel : label ∈ verdictLabels) (h : ∀ line ∈ ls, Silent line) :
    labelled label (ls.flatMap Text.lines) = [] := by
  induction ls with
  | nil => rfl
  | cons line ls ih =>
      obtain ⟨hline, hrest⟩ := List.forall_mem_cons.mp h
      rw [List.flatMap_cons, labelled_append, hline label hlabel, ih hrest]
      rfl

/-- The lines that an echoed id goes on to behind its first line break. -/
def strayLines (e : Exchange) : List String := (Text.lines (orNone e.echo.requestId)).tail

/-- The lines that tell the verdicts on a move. -/
def verdictLines (e : Exchange) : List String :=
  ("RequestId match:        " ++ (if e.requestIdMatches then "true" else "false")) ::
    if e.latency.isSome then
      ["RequestId sync: " ++ verdict e.requestIdMatches,
       "Timestamp sync: " ++ verdict e.timestampMatches]
    else []

variable {e : Exchange}

theorem strayLines_eq_nil (h : '\n' ∉ (orNone e.echo.requestId).toList) : strayLines e = [] := by
  rw [strayLines, Text.lines_of_notMem h]
  rfl

/-- The lines of the report on a move up to the sent id. -/
def linesBefore (e : Exchange) : List String :=
  received e ++ ["", "Lag compensation analysis:", "Original requestId:     " ++ e.requestId]

/-- The lines with the times. -/
def linesBetween (e : Exchange) : List String :=
  ["Client send time:       " ++ millis e.clientSend,
   "Server recv time:       " ++ orNone (e.echo.serverRecv.map millis),
   "Server send time:       " ++ orNone (e.echo.serverSend.map millis),
   "Client recv time:       " ++ millis e.clientRecv,
   "Client send echo:       " ++ orNone (e.echo.clientSend.map millis)]

/-- The lines after the times, without the verdicts. -/
def closingLines (e : Exchange) : List String :=
  match e.latency with
  | some latency => ["", "Timing:"] ++ latency.lines
  | none => ["Incomplete data for lag compensation analysis"]

theorem moveLines_eq (e : Exchange) :
    moveLines e = linesBefore e ++ ["Echoed requestId:       " ++ orNone e.echo.requestId] ++
      (verdictLines e).take 1 ++ linesBetween e ++ closingLines e ++ (verdictLines e).drop 1 := by
  rw [moveLines, closingLines, verdictLines]
  cases e.latency with
  | none => rfl
  | some latency => simp [linesBefore, linesBetween]

theorem silent_of_mem_linesBefore (h : '\n' ∉ e.requestId.toList) :
    ∀ line ∈ linesBefore e, Silent line := by
  intro line hline
  simp only [linesBefore, received, List.cons_append, List.nil_append, List.mem_cons,
    List.not_mem_nil, or_false] at hline
  rcases hline with rfl | rfl | rfl | rfl | rfl
  · exact Silent.of_begins "Received response:" (by decide) (List.prefix_refl _) (by decide)
  · exact Silent.pretty e.response
  · exact Silent.empty
  · exact Silent.of_begins "Lag compensation analysis:" (by decide) (List.prefix_refl _) (by decide)
  · exact Silent.append "Original requestId:" (by decide) (by decide) (by decide) h

theorem silent_of_mem_linesBetween : ∀ line ∈ linesBetween e, Silent line := by
  intro line hline
  simp only [linesBetween, List.mem_cons, List.not_mem_nil, or_false] at hline
  rcases hline with rfl | rfl | rfl | rfl | rfl
  · exact Silent.append "Client" (by decide) (by decide) (by decide) (notMem_ofInt _)
  · exact Silent.append "Server" (by decide) (by decide) (by decide) (notMem_orNone_millis _)
  · exact Silent.append "Server" (by decide) (by decide) (by decide) (notMem_orNone_millis _)
  · exact Silent.append "Client" (by decide) (by decide) (by decide) (notMem_ofInt _)
  · exact Silent.append "Client" (by decide) (by decide) (by decide) (notMem_orNone_millis _)

theorem silent_of_mem_closingLines : ∀ line ∈ closingLines e, Silent line := by
  intro line hline
  rw [closingLines] at hline
  split at hline
  · simp only [List.cons_append, List.nil_append, List.mem_cons] at hline
    rcases hline with rfl | rfl | hline
    · exact Silent.empty
    · exact Silent.of_begins "Timing:" (by decide) (List.prefix_refl _) (by decide)
    · exact Silent.of_mem_latency hline
  · rw [List.mem_singleton.mp hline]
    exact Silent.of_begins "Incomplete data" (by decide) (by decide) (by decide)

theorem notMem_of_mem_verdictLines : ∀ line ∈ verdictLines e, '\n' ∉ line.toList := by
  have hverdict (ok : Bool) : '\n' ∉ (verdict ok).toList := by
    cases ok <;> decide
  intro line hline
  rw [verdictLines, List.mem_cons] at hline
  rcases hline with rfl | hline
  · exact notMem_toList_append (by decide) (by split <;> decide)
  · split at hline
    · rcases List.mem_pair.mp hline with rfl | rfl
      · exact notMem_toList_append (by decide) (hverdict _)
      · exact notMem_toList_append (by decide) (hverdict _)
    · cases hline

/-- The first line of an echoed id has the label of the echo in front of it, the others are as they
are. -/
theorem labelled_echoed (hlabel : label ∈ verdictLabels) (e : Exchange) :
    labelled label (Text.lines ("Echoed requestId:       " ++ orNone e.echo.requestId)) =
      labelled label (strayLines e) := by
  obtain ⟨first, hlines⟩ := Text.exists_lines_append
    (by decide : '\n' ∉ "Echoed requestId:       ".toList) (orNone e.echo.requestId)
  have hapart : ∀ label ∈ verdictLabels, Apart label "Echoed requestId:       " := by
    decide +kernel
  rw [hlines, labelled_cons_of_not_begins ((hapart label hlabel).not_begins (prefix_append _ _)),
    strayLines]

/-- The lines with the label of a verdict are those among the stray ones, and then the verdict. -/
theorem labelled_move (hlabel : label ∈ verdictLabels) (h : '\n' ∉ e.requestId.toList) :
    labelled label (Text.lines (move e)) =
      labelled label (strayLines e) ++ labelled label (verdictLines e) := by
  have hfirst : ((verdictLines e).take 1).flatMap Text.lines = (verdictLines e).take 1 :=
    Text.flatMap_lines_of_notMem fun line hline =>
      notMem_of_mem_verdictLines line (List.mem_of_mem_take hline)
  have hothers : ((verdictLines e).drop 1).flatMap Text.lines = (verdictLines e).drop 1 :=
    Text.flatMap_lines_of_notMem fun line hline =>
      notMem_of_mem_verdictLines line (List.mem_of_mem_drop hline)
  have hne : moveLines e ≠ [] := List.cons_ne_nil _ _
  rw [move, ofLines, Text.lines_intercalate hne, moveLines_eq]
  simp only [List.flatMap_append, labelled_append, hfirst, hothers,
    labelled_flatMap_of_silent hlabel (silent_of_mem_linesBefore h),
    labelled_flatMap_of_silent hlabel silent_of_mem_linesBetween,
    labelled_flatMap_of_silent hlabel silent_of_mem_closingLines,
    List.flatMap_singleton, labelled_echoed hlabel, List.nil_append, List.append_assoc]
  rw [← labelled_append, List.take_append_drop]

/-- Each verdict has a label of its own. -/
theorem labelled_verdictLines (e : Exchange) :
    labelled "RequestId match:" (verdictLines e) =
      ["RequestId match:        " ++ (if e.requestIdMatches then "true" else "false")] ∧
    labelled "RequestId sync:" (verdictLines e) =
      (if e.latency.isSome then ["RequestId sync: " ++ verdict e.requestIdMatches] else []) ∧
    labelled "Timestamp sync:" (verdictLines e) =
      (if e.latency.isSome then ["Timestamp sync: " ++ verdict e.timestampMatches] else []) := by
  have hmatch : Apart "RequestId sync:" "RequestId match:        " ∧
      Apart "Timestamp sync:" "RequestId match:        " := by decide
  have hid : Apart "RequestId match:" "RequestId sync: " ∧
      Apart "Timestamp sync:" "RequestId sync: " := by decide
  have htime : Apart "RequestId match:" "Timestamp sync: " ∧
      Apart "RequestId sync:" "Timestamp sync: " := by decide
  rw [verdictLines]
  cases e.latency.isSome with
  | false =>
      refine ⟨labelled_cons_append_of_begins (by decide), ?_, ?_⟩
      · exact labelled_cons_append_of_apart hmatch.1
      · exact labelled_cons_append_of_apart hmatch.2
  | true =>
      rw [if_pos rfl, if_pos rfl, if_pos rfl]
      refine ⟨?_, ?_, ?_⟩
      · rw [labelled_cons_append_of_begins (by decide), labelled_cons_append_of_apart hid.1,
          labelled_cons_append_of_apart htime.1]
        rfl
      · rw [labelled_cons_append_of_apart hmatch.1, labelled_cons_append_of_begins (by decide),
          labelled_cons_append_of_apart htime.2]
        rfl
      · rw [labelled_cons_append_of_apart hmatch.2, labelled_cons_append_of_apart hid.2,
          labelled_cons_append_of_begins (by decide)]
        rfl

theorem failure_ne_success (sent received : String) :
    "RequestId echo: FAILURE, sent " ++ sent ++ ", received " ++ received ≠
      "RequestId echo: SUCCESS for joinCharacter" := by
  intro heq
  have hprefix := prefix_append "RequestId echo: FAILURE, sent "
    (sent ++ ", received " ++ received)
  rw [← String.append_assoc, ← String.append_assoc, heq] at hprefix
  exact absurd hprefix (by decide)

/-- A mismatch ends with the last stray line, or with a line that no match ends with. -/
theorem getLast?_lines_mismatch (h : '\n' ∉ e.requestId.toList) :
    (Text.lines ("RequestId echo: FAILURE, sent " ++ e.requestId ++ ", received " ++
        orNone e.echo.requestId)).getLast? = some "RequestId echo: SUCCESS for joinCharacter" ↔
      (strayLines e).getLast? = some "RequestId echo: SUCCESS for joinCharacter" := by
  have hfront : '\n' ∉ ("RequestId echo: FAILURE, sent " ++ e.requestId ++ ", received ").toList :=
    notMem_toList_append (notMem_toList_append (by decide) h) (by decide)
  obtain ⟨first, hlines⟩ := Text.exists_lines_append hfront (orNone e.echo.requestId)
  rw [hlines, ← strayLines, List.getLast?_cons, Option.some_inj]
  cases (strayLines e).getLast? with
  | none => simp [failure_ne_success]
  | some line => simp

/-- The last line of the report on a join is its verdict, or the last stray line if there is one. -/
theorem getLast?_lines_join (h : '\n' ∉ e.requestId.toList) :
    (Text.lines (join e)).getLast? = some "RequestId echo: SUCCESS for joinCharacter" ↔
      e.requestIdMatches ∨
        (strayLines e).getLast? = some "RequestId echo: SUCCESS for joinCharacter" := by
  have hne : joinLines e ≠ [] := List.cons_ne_nil _ _
  have hlast (line : String) (ls : List String) :
      (ls ++ Text.lines line).getLast? = (Text.lines line).getLast? := by
    rw [List.getLast?_append_of_ne_nil]
    exact mt List.map_eq_nil_iff.mp (List.splitOn_ne_nil _ _)
  rw [join, ofLines, Text.lines_intercalate hne, joinLines, List.flatMap_append,
    List.flatMap_singleton, hlast]
  cases e.requestIdMatches with
  | true => simp [Text.lines_of_notMem]
  | false =>
      rw [if_neg Bool.false_ne_true, getLast?_lines_mismatch h]
      simp

/-- The verdicts of a report stand behind the stray lines of the echoed id, which are the only other
lines that may bear their labels, and of which there are none if the id has no line break. So on a
move the last line with a label is the verdict, and the only one but for stray ones; a join ends
with a success if there is one, or if the last stray line says so. -/
theorem verdicts_follow_stray_lines (e : Exchange) (h : '\n' ∉ e.requestId.toList) :
    ((Text.lines (join e)).getLast? = some "RequestId echo: SUCCESS for joinCharacter" ↔
      e.requestIdMatches ∨
        (strayLines e).getLast? = some "RequestId echo: SUCCESS for joinCharacter") ∧
    labelled "RequestId match:" (Text.lines (move e)) =
      labelled "RequestId match:" (strayLines e) ++
        ["RequestId match:        " ++ (if e.requestIdMatches then "true" else "false")] ∧
    labelled "RequestId sync:" (Text.lines (move e)) =
      labelled "RequestId sync:" (strayLines e) ++
        (if e.latency.isSome then
          ["RequestId sync: " ++ if e.requestIdMatches then "SUCCESS" else "FAILURE"] else []) ∧
    labelled "Timestamp sync:" (Text.lines (move e)) =
      labelled "Timestamp sync:" (strayLines e) ++
        (if e.latency.isSome then
          ["Timestamp sync: " ++ if e.timestampMatches then "SUCCESS" else "FAILURE"] else []) ∧
    ('\n' ∉ (orNone e.echo.requestId).toList → strayLines e = []) := by
  obtain ⟨hmatch, hid, htime⟩ := labelled_verdictLines e
  refine ⟨getLast?_lines_join h, ?_, ?_, ?_, strayLines_eq_nil⟩
  · rw [labelled_move (by decide) h, hmatch]
  · rw [labelled_move (by decide) h, hid]
    rfl
  · rw [labelled_move (by decide) h, htime]
    rfl

/-- An exchange whose response echoes an id that goes on to two lines. -/
def forged : Exchange where
  requestId := "sync_id"
  clientSend := 1000
  clientRecv := 1010
  response := ⟨.object [("body", .object [("requestIdEcho",
    .string "nope\nRequestId match:        true\nRequestId echo: SUCCESS for joinCharacter")])]⟩

/-- The forged lines are told apart from the verdict on a move, which comes last. -/
theorem verdicts_follow_stray_lines_forged :
    '\n' ∉ forged.requestId.toList ∧ forged.requestIdMatches = false ∧
      labelled "RequestId match:" (Text.lines (move forged)) =
        ["RequestId match:        true", "RequestId match:        false"] := by
  have hline : '\n' ∉ forged.requestId.toList := by decide
  have hmatches : forged.requestIdMatches = false := by decide +kernel
  have hstray : labelled "RequestId match:" (strayLines forged) = ["RequestId match:        true"] := by
    decide +kernel
  obtain ⟨-, hmatch, -⟩ := verdicts_follow_stray_lines forged hline
  rw [hstray, hmatches] at hmatch
  exact ⟨hline, hmatches, hmatch⟩

/-- With an echoed id that is not the one sent, the report on a join ends with a success, and the
report on a move has two lines that tell whether the ids match. -/
theorem verdicts_forged :
    '\n' ∉ forged.requestId.toList ∧
      ¬((Text.lines (join forged)).getLast? = some "RequestId echo: SUCCESS for joinCharacter" ↔
        forged.requestIdMatches) ∧
      (labelled "RequestId match:" (Text.lines (move forged))).length = 2 := by
  have hline : '\n' ∉ forged.requestId.toList := by decide
  have hmatches : forged.requestIdMatches = false := by decide +kernel
  refine ⟨hline, ?_, ?_⟩
  · rw [hmatches, getLast?_lines_join hline, hmatches]
    decide +kernel
  · rw [labelled_move (by decide) hline, (labelled_verdictLines forged).1]
    decide +kernel

end LatencyProbe.Report
