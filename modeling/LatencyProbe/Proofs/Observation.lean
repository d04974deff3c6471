import LatencyProbe.Proofs.Json.Rereading
import LatencyProbe.Proofs.VerdictLines

/-!
# What a report tells

A report can be taken apart from its front. The response comes first and tells itself where it ends,
and with it all that the server said is known, an echoed id with its line breaks included. Of the
other lines none has a break of its own, so each ends at the next one and gives away what the client
put into it. Where two reports are equal, so is what was observed.
-/

namespace LatencyProbe

/-- The text of a value tells where it ends, and which value it is of up to the doubles that are not
read back. -/
theorem Json.reread_eq_of_render_append_eq {layout : Layout} (blank : layout.IsBlank) {n : Nat}
    {v w : Json} {rest rest' : List Char} (hrest : Ends rest) (hrest' : Ends rest')
    (h : render layout n v ++ rest = render layout n w ++ rest') :
    v.reread = w.reread ∧ rest = rest' := by
  have hv := denotes_render blank n v (le_max_left v.depth w.depth)
  have hw := denotes_render blank n w (le_max_right v.depth w.depth)
  have hread := Scan.accepts_of_denotes hv rest fun _ => hrest
  have hread' := Scan.accepts_of_denotes hw rest' fun _ => hrest'
  rw [h, hread'] at hread
  obtain ⟨hvalue, hends⟩ := Prod.mk.inj (Except.ok.inj hread)
  exact ⟨hvalue.symm, hends.symm⟩

/-- What stands behind the text of a response on a line of its own begins where the text ends. -/
theorem Response.pretty_append_inj {r r' : Response} {rest rest' : List Char}
    (hr : ∀ x ∈ r.value.doubles, x.ReadsBack) (hr' : ∀ x ∈ r'.value.doubles, x.ReadsBack)
    (h : r.pretty.toList ++ '\n' :: rest = r'.pretty.toList ++ '\n' :: rest') :
    r = r' ∧ rest = rest' := by
  rw [pretty, pretty, String.toList_ofList, String.toList_ofList] at h
  obtain ⟨hvalue, hrest⟩ := Json.reread_eq_of_render_append_eq Json.Layout.isBlank_pretty
    (.cons (by decide)) (.cons (by decide)) h
  rw [Json.reread_of_readsBack hr, Json.reread_of_readsBack hr'] at hvalue
  exact ⟨congrArg Response.mk hvalue, (List.cons.inj hrest).2⟩

namespace Report

variable {l l' m m' front : String} {ls ls' : List String}

/-- What follows on equal lines is equal, also where those lines have breaks. -/
theorem ofLines_cons_inj (h : ofLines (l :: m :: ls) = ofLines (l :: m' :: ls')) :
    ofLines (m :: ls) = ofLines (m' :: ls') := by
  have htext := congrArg String.toList h
  rw [ofLines, ofLines, Text.toList_intercalate_cons_cons, Text.toList_intercalate_cons_cons] at htext
  exact String.toList_injective (List.cons.inj (List.append_cancel_left htext)).2

/-- A line without a break ends at the first one of the text. -/
theorem ofLines_cons_inj_of_notMem (hl : '\n' ∉ l.toList) (hl' : '\n' ∉ l'.toList)
    (h : ofLines (l :: m :: ls) = ofLines (l' :: m' :: ls')) :
    l = l' ∧ ofLines (m :: ls) = ofLines (m' :: ls') := by
  have hfirst {l : String} (hl : '\n' ∉ l.toList) (ls : List String) :
      (Text.lines (ofLines (l :: ls))).head? = some l := by
    rw [ofLines, Text.lines_intercalate (List.cons_ne_nil _ _), List.flatMap_cons,
      Text.lines_of_notMem hl]
    rfl
  have hline := hfirst hl (m :: ls)
  rw [h, hfirst hl'] at hline
  obtain rfl := (Option.some.inj hline).symm
  exact ⟨rfl, ofLines_cons_inj h⟩

/-- The same for what stands behind a label. -/
theorem ofLines_labelled_inj {s s' : String} (hfront : '\n' ∉ front.toList) (hs : '\n' ∉ s.toList)
    (hs' : '\n' ∉ s'.toList)
    (h : ofLines ((front ++ s) :: m :: ls) = ofLines ((front ++ s') :: m' :: ls')) :
    s = s' ∧ ofLines (m :: ls) = ofLines (m' :: ls') := by
  obtain ⟨hline, hrest⟩ := ofLines_cons_inj_of_notMem (notMem_toList_append hfront hs)
    (notMem_toList_append hfront hs') h
  exact ⟨(String.append_right_inj front).mp hline, hrest⟩

theorem millis_injective : Function.Injective millis := fun _ _ h =>
  Int64.toInt_inj.mp (Text.ofInt_injective h)

variable {e e' : Exchange}

/-- Both reports begin with the response, which is thereby known. -/
theorem received_inj (hread : ∀ x ∈ e.response.value.doubles, x.ReadsBack)
    (hread' : ∀ x ∈ e'.response.value.doubles, x.ReadsBack)
    (h : ofLines (received e ++ m :: ls) = ofLines (received e' ++ m' :: ls')) :
    e.response = e'.response ∧ ofLines (m :: ls) = ofLines (m' :: ls') := by
  have hpretty : ofLines (e.response.pretty :: m :: ls) = ofLines (e'.response.pretty :: m' :: ls') :=
    ofLines_cons_inj (l := "Received response:") h
  have htext := congrArg String.toList hpretty
  rw [ofLines, ofLines, Text.toList_intercalate_cons_cons, Text.toList_intercalate_cons_cons] at htext
  obtain ⟨hresponse, hrest⟩ := Response.pretty_append_inj hread hread' htext
  exact ⟨hresponse, String.toList_injective hrest⟩

/-- Behind the response, the report on a move tells the id sent and both times of the client. What
stands on the other lines is told by the response, and by the id. -/
theorem eq_of_move_eq (hline : '\n' ∉ e.requestId.toList) (hline' : '\n' ∉ e'.requestId.toList)
    (hread : ∀ x ∈ e.response.value.doubles, x.ReadsBack)
    (hread' : ∀ x ∈ e'.response.value.doubles, x.ReadsBack) (h : move e = move e') : e = e' := by
  obtain ⟨id, send, recv, response⟩ := e
  obtain ⟨id', send', recv', response'⟩ := e'
  rw [move, move, moveLines, moveLines, List.append_assoc, List.append_assoc] at h
  obtain ⟨hresponse, h⟩ := received_inj hread hread' h
  obtain rfl : response = response' := hresponse
  -- an empty line and the heading
  have h := ofLines_cons_inj (ofLines_cons_inj h)
  obtain ⟨hid, h⟩ := ofLines_labelled_inj (by decide) hline hline' h
  obtain rfl : id = id' := hid
  -- the echoed id, which may have breaks, and whether it is the one sent
  have h := ofLines_cons_inj (ofLines_cons_inj h)
  obtain ⟨hsend, h⟩ := ofLines_labelled_inj (by decide) (notMem_ofInt _) (notMem_ofInt _) h
  obtain rfl : send = send' := millis_injective hsend
  -- both times of the server
  have h := ofLines_cons_inj (ofLines_cons_inj h)
  obtain ⟨hrecv, -⟩ := ofLines_labelled_inj (by decide) (notMem_ofInt _) (notMem_ofInt _) h
  obtain rfl : recv = recv' := millis_injective hrecv
  rfl

/-- Behind the response, the report on a join tells the id sent: a success says that it is the
echoed one, and a failure has it in front of the echoed one. -/
theorem requestId_and_response_eq_of_join_eq (hread : ∀ x ∈ e.response.value.doubles, x.ReadsBack)
    (hread' : ∀ x ∈ e'.response.value.doubles, x.ReadsBack) (h : join e = join e') :
    e.requestId = e'.requestId ∧ e.response = e'.response := by
  rw [join, join, joinLines, joinLines] at h
  obtain ⟨hresponse, h⟩ := received_inj hread hread' h
  have hecho : e.echo = e'.echo := congrArg Response.echo hresponse
  refine ⟨?_, hresponse⟩
  rw [ofLines, ofLines, String.intercalate_singleton, String.intercalate_singleton, hecho] at h
  cases hmatches : e.requestIdMatches with
  | true =>
      cases hmatches' : e'.requestIdMatches with
      | true =>
          have hsent : e.echo.requestId = some e.requestId := eq_of_beq hmatches
          rw [hecho, eq_of_beq hmatches'] at hsent
          exact (Option.some.inj hsent).symm
      | false =>
          rw [hmatches, hmatches'] at h
          exact absurd h.symm (failure_ne_success _ _)
  | false =>
      cases hmatches' : e'.requestIdMatches with
      | true =>
          rw [hmatches, hmatches'] at h
          exact absurd h (failure_ne_success _ _)
      | false =>
          rw [hmatches, hmatches', if_neg Bool.false_ne_true, if_neg Bool.false_ne_true] at h
          exact (String.append_right_inj _).mp
            ((String.append_left_inj _).mp ((String.append_left_inj _).mp h))

/-- A report tells what was observed, whatever an echoed id looks like: the one on a move the whole
exchange, and with it its echo, verdicts and latencies, the one on a join all but the times of the
client. -/
theorem report_tells_observation (e e' : Exchange) (hline : '\n' ∉ e.requestId.toList)
    (hline' : '\n' ∉ e'.requestId.toList) (hread : ∀ x ∈ e.response.value.doubles, x.ReadsBack)
    (hread' : ∀ x ∈ e'.response.value.doubles, x.ReadsBack) :
    (move e = move e' → e = e') ∧
      (join e = join e' → e.requestId = e'.requestId ∧ e.response = e'.response) :=
  ⟨eq_of_move_eq hline hline' hread hread', requestId_and_response_eq_of_join_eq hread hread'⟩

/-- A request that is answered with an id and the fraction 0.3, which is read back. -/
def answered (requestId echoed : String) : Exchange where
  requestId := requestId
  clientSend := 1000
  clientRecv := 1010
  response := ⟨.object [("body", .object [("requestIdEcho", .string echoed)]),
    ("load", .number (.float ⟨false, 0x3FD3333333333333, by decide⟩))]⟩

/-- Two exchanges whose verdicts on a join are the same text, since both ids hold a piece of it. The
reports still differ. -/
theorem report_tells_observation_ambiguous :
    let e := answered "a" "b, received c"
    let e' := answered "a, received b" "c"
    (joinLines e).getLast? = (joinLines e').getLast? ∧ join e ≠ join e' ∧ move e ≠ move e' := by
  intro e e'
  have hread {s s' : String} : ∀ x ∈ (answered s s').response.value.doubles, x.ReadsBack := by
    intro x hx
    rw [List.mem_singleton.mp hx]
    decide +kernel
  have hne : e.requestId ≠ e'.requestId := by decide
  obtain ⟨hmove, hjoin⟩ := report_tells_observation e e' (by decide) (by decide) hread hread
  refine ⟨by decide +kernel, ?_, ?_⟩
  · intro h
    exact hne (hjoin h).1
  · intro h
    exact hne (congrArg Exchange.requestId (hmove h))

end Report
end LatencyProbe
