import LatencyProbe.Proofs.EchoServer
import LatencyProbe.Proofs.Json.Rereading
import LatencyProbe.Proofs.Language

/-!
# Whatever a client sends

The bytes that a client sends need not be requests, nor text. They are cut into lines, and the lines
in front of the first that holds no document are answered one by one. A request may be any value, as
deep as the reader allows: its reply echoes parts that are nested less deep than it, so a client can
read every reply.
-/

namespace LatencyProbe.EchoServer

/-- How input is cut into lines, without their breaks. -/
inductive Cut : List UInt8 → List (List UInt8) → Prop
  | nil : Cut [] []
  | rest {line} : line ≠ [] → 10 ∉ line → Cut line [line]
  | lineFeed {line input lines} : 10 ∉ line → line.getLast? ≠ some 13 → Cut input lines →
      Cut (line ++ 10 :: input) (line :: lines)
  | carriageReturn {line input lines} : 10 ∉ line → Cut input lines →
      Cut (line ++ 13 :: 10 :: input) (line :: lines)

theorem content_append_return_break (line : List UInt8) : content (line ++ [13, 10]) = line := by
  simp [content]

theorem content_of_not_mem {line : List UInt8} (h : 10 ∉ line) : content line = line := by
  have hbreak (rest : List UInt8) : line.reverse ≠ 10 :: rest := by
    intro hreverse
    exact h (List.mem_reverse.mp (hreverse ▸ List.mem_cons_self ..))
  rw [content]
  split
  · next heq => exact absurd heq (hbreak _)
  · next heq => exact absurd heq (hbreak _)
  · rfl

theorem lines_of_not_mem {line : List UInt8} (hne : line ≠ []) (h : 10 ∉ line) :
    lines line = [line] := by
  induction line with
  | nil => exact absurd rfl hne
  | cons b rest ih =>
      have hb : b ≠ 10 := (List.ne_of_not_mem_cons h).symm
      rw [lines, if_neg hb]
      cases rest with
      | nil => rfl
      | cons c more => rw [ih (List.cons_ne_nil c more) (List.not_mem_of_not_mem_cons h)]

namespace Cut

/-- The lines of any input, without their breaks. -/
theorem of_lines (input : List UInt8) : Cut input ((lines input).map content) := by
  by_cases h : 10 ∈ input
  · obtain ⟨front, rest, rfl, hfront⟩ := List.eq_append_cons_of_mem h
    have ih := of_lines rest
    rw [lines_append_break (List.forall_mem_ne'.mpr hfront), List.map_cons]
    -- A carriage return in front of the break belongs to the break.
    by_cases hreturn : front.getLast? = some 13
    · obtain ⟨line, rfl⟩ := List.getLast?_eq_some_iff.mp hreturn
      rw [List.append_assoc, List.append_assoc, List.singleton_append, List.singleton_append,
        content_append_return_break]
      exact .carriageReturn (fun hmem => hfront (List.mem_append_left _ hmem)) ih
    · rw [content_append_break hreturn]
      exact .lineFeed hfront hreturn ih
  · cases input with
    | nil => exact .nil
    | cons b rest =>
        have hne := List.cons_ne_nil b rest
        rw [lines_of_not_mem hne h, List.map_singleton, content_of_not_mem h]
        exact .rest hne h
termination_by input.length

theorem eq_map {input : List UInt8} {cuts : List (List UInt8)} (h : Cut input cuts) :
    cuts = (lines input).map content := by
  induction h with
  | nil => rfl
  | rest hne hline => rw [lines_of_not_mem hne hline, List.map_singleton, content_of_not_mem hline]
  | lineFeed hline hreturn _ ih =>
      rw [lines_append_break (List.forall_mem_ne'.mpr hline), List.map_cons,
        content_append_break hreturn, ← ih]
  | @carriageReturn line input _ hline _ ih =>
      have hfront : 10 ∉ line ++ [13] := by simp [hline]
      have hinput : line ++ 13 :: 10 :: input = (line ++ [13]) ++ 10 :: input := by simp
      rw [hinput, lines_append_break (List.forall_mem_ne'.mpr hfront), List.map_cons,
        List.append_assoc, List.singleton_append, content_append_return_break, ← ih]

end Cut

/-- There is one way to cut any input into lines. -/
theorem cut_iff {input : List UInt8} {cuts : List (List UInt8)} :
    Cut input cuts ↔ cuts = (lines input).map content :=
  ⟨Cut.eq_map, fun h => h ▸ Cut.of_lines input⟩

/-- A line that holds a document, and what the document means. -/
def IsRequest (line : List UInt8) (request : Json) : Prop :=
  ∃ text t, line = Utf8.encode text ∧ Json.SpellsDocument text t ∧ t.depth ≤ 127 ∧ t.InRange ∧
    Json.Means t request

theorem request_eq_ok_iff {line : List UInt8} {v : Json} :
    request line = .ok v ↔ IsRequest (content line) v := by
  constructor
  · intro h
    rw [request] at h
    split at h
    · cases h
    · next text htext =>
      split at h
      · cases h
      · next value hvalue =>
        cases h
        obtain ⟨t, hspells⟩ := Json.parse_eq_ok_iff.mp hvalue
        exact ⟨text, t, Utf8.decode_eq_ok_iff.mp htext, hspells⟩
  · rintro ⟨text, t, hline, hspells⟩
    rw [request, hline, Utf8.decode_encode]
    dsimp only
    rw [Json.parse_eq_ok_iff.mpr ⟨t, hspells⟩]

theorem not_isRequest_of_error {line : List UInt8} {fault : Fault}
    (h : request line = .error fault) : ¬∃ v, IsRequest (content line) v := by
  rintro ⟨v, hv⟩
  rw [request_eq_ok_iff.mpr hv] at h
  cases h

/-- The lines in front of the first that holds no request, and the others. -/
theorem exists_first_fault (lines : List (List UInt8)) :
    ∃ good rest requests, lines = good ++ rest ∧
      List.Forall₂ (fun line v => request line = .ok v) good requests ∧
      ∀ line ∈ rest.head?, ∃ fault, request line = .error fault := by
  induction lines with
  | nil => exact ⟨[], [], [], rfl, .nil, by simp⟩
  | cons line lines ih =>
      cases hline : request line with
      | error fault =>
          refine ⟨[], line :: lines, [], rfl, .nil, ?_⟩
          intro line' hline'
          cases hline'
          exact ⟨fault, hline⟩
      | ok v =>
          obtain ⟨good, rest, requests, rfl, hgood, hrest⟩ := ih
          exact ⟨line :: good, rest, v :: requests, rfl, .cons hline hgood, hrest⟩

/-- At a line that holds no request the connection is ended, and nothing is sent any more. -/
theorem serve_of_head {clock : Nat → Instant} {index : Nat} {rest : List (List UInt8)}
    (h : ∀ line ∈ rest.head?, ∃ fault, request line = .error fault) :
    (serve none clock index rest).sent = [] ∧
      ((serve none clock index rest).fault = none ↔ rest = []) := by
  cases rest with
  | nil => exact ⟨rfl, iff_of_true rfl rfl⟩
  | cons line more =>
      obtain ⟨fault, hfault⟩ := h line rfl
      rw [serve, hfault]
      exact ⟨rfl, by simp⟩

/-- A value that answers a request: it echoes what the header of the request says, null where that
says nothing, and has the times of two readings. -/
structure Answers (reply request : Json) (received sent : Instant) : Prop where
  event : (reply.get? "header").bind (Json.get? "eventType") =
    some (((request.get? "header").bind (Json.get? "eventType")).getD .null)
  requestId : (reply.get? "header").bind (Json.get? "requestIdEcho") =
    some (((request.get? "header").bind (Json.get? "requestId")).getD .null)
  clientSend : (reply.get? "header").bind (Json.get? "clientSendMsEcho") =
    some (((request.get? "header").bind (Json.get? "clientSendMs")).getD .null)
  serverRecv : (reply.get? "header").bind (Json.get? "serverRecvMs") = some (.int64 received.millis)
  serverSend : (reply.get? "header").bind (Json.get? "serverSendMs") = some (.int64 sent.millis)

theorem answers_reply (v : Json) (received sent : Instant) :
    Answers (reply v received sent) v received sent := by
  constructor <;> simp [reply, said, Json.get?, Json.lookup_cons]

/-- What is echoed stands two containers deep in the request. -/
theorem depth_said_le {v : Json} (h : v.depth ≤ Json.maxDepth) (key : String) :
    (said v key).depth + 2 ≤ Json.maxDepth := by
  rw [said]
  cases hsaid : (v.get? "header").bind (Json.get? key) with
  | none => simp [Json.depth, Json.maxDepth]
  | some w =>
      obtain ⟨header, hheader, hw⟩ := Option.bind_eq_some_iff.mp hsaid
      have houter := Json.depth_lt_of_get? hheader
      have hinner := Json.depth_lt_of_get? hw
      rw [Option.getD_some]
      omega

theorem depth_reply_le {v : Json} (h : v.depth ≤ Json.maxDepth) (received sent : Instant) :
    (reply v received sent).depth ≤ Json.maxDepth := by
  have hevent := depth_said_le h "eventType"
  have hid := depth_said_le h "requestId"
  have hsend := depth_said_le h "clientSendMs"
  have hlimit : 3 ≤ Json.maxDepth := by decide
  rw [depth_reply]
  omega

theorem collated_said {v : Json} (h : v.collated = v) (key : String) :
    (said v key).collated = said v key := by
  rw [said]
  cases hsaid : (v.get? "header").bind (Json.get? key) with
  | none => rfl
  | some w =>
      obtain ⟨header, hheader, hw⟩ := Option.bind_eq_some_iff.mp hsaid
      exact Json.collated_of_get? (Json.collated_of_get? h hheader) hw

theorem collated_reply {v : Json} (h : v.collated = v) (received sent : Instant) :
    (reply v received sent).collated = reply v received sent := by
  have houter : ["body", "header"].Pairwise (· < ·) := by decide +kernel
  have hinner : ["clientSendMsEcho", "eventType", "requestIdEcho", "serverRecvMs",
    "serverSendMs"].Pairwise (· < ·) := by decide +kernel
  refine Json.Ascending.collated_object (List.pairwise_map.mp houter) ?_
  simp only [List.forall_mem_cons, List.not_mem_nil, false_imp_iff, implies_true, and_true]
  refine ⟨rfl, Json.Ascending.collated_object (List.pairwise_map.mp hinner) ?_⟩
  simp [collated_said h]

/-- A reply is read as the value that was sent, but for the doubles that are not read back. -/
theorem ofBytes_reply {line : List UInt8} {v : Json} (h : IsRequest line v)
    (received sent : Instant) :
    Response.ofBytes (Utf8.encode (reply v received sent).compact ++ [10]) =
      .ok ⟨(reply v received sent).reread⟩ := by
  obtain ⟨text, t, -, hspells⟩ := h
  obtain ⟨hcollated, hdepth⟩ :=
    Json.collated_and_depth_le_of_parse (Json.parse_eq_ok_iff.mpr ⟨t, hspells⟩)
  rw [← encode_replyLine, ofBytes_replyLine received sent (depth_reply_le hdepth received sent),
    Json.collated_reread, collated_reply hcollated]

/-- A reply is a line that answers its request, and is read whole if its doubles are read back. -/
theorem reply_line {line : List UInt8} {v : Json} (h : IsRequest line v)
    (received sent : Instant) :
    let front := Utf8.encode (reply v received sent).compact
    (∀ b ∈ front, 0x20 ≤ b.toNat) ∧ Answers (reply v received sent) v received sent ∧
      Response.ofBytes (front ++ [10]) = .ok ⟨(reply v received sent).reread⟩ ∧
      ((∀ x ∈ (reply v received sent).doubles, x.ReadsBack) →
        Response.ofBytes (front ++ [10]) = .ok ⟨reply v received sent⟩) := by
  have hread := ofBytes_reply h received sent
  refine ⟨(Json.printable_compact _).le_of_mem_encode, answers_reply v received sent, hread, ?_⟩
  intro hdoubles
  rw [hread, Json.reread_of_readsBack hdoubles]

/-- Lines that come later are answered as the first lines of a connection with a later clock. -/
theorem serve_add (clock : Nat → Instant) (n index : Nat) (lines : List (List UInt8)) :
    serve none clock (n + index) lines =
      serve none (fun k => clock (2 * n + k)) index lines := by
  -- The induction is on the lines, each of which moves the index on by one, so the index is free.
  induction lines generalizing index with
  | nil => rfl
  | cons line lines ih =>
      rw [serve, serve, Nat.mul_add, Nat.add_assoc n index 1, ih (index + 1)]
      rfl

/-- A line with its break that holds a request. -/
def GoodLine (line : List UInt8) : Prop :=
  ∃ front request, line = front ++ [10] ∧ 10 ∉ front ∧ IsRequest (content line) request

theorem lines_flatten_append {pieces : List (List UInt8)} (h : ∀ piece ∈ pieces, GoodLine piece)
    (rest : List UInt8) : lines (pieces.flatten ++ rest) = pieces ++ lines rest := by
  induction pieces with
  | nil => rfl
  | cons piece pieces ih =>
      obtain ⟨⟨front, _, rfl, hfront, _⟩, hpieces⟩ := List.forall_mem_cons.mp h
      rw [List.flatten_cons, List.append_assoc, List.append_assoc, List.singleton_append,
        lines_append_break (List.forall_mem_ne'.mpr hfront), ih hpieces, List.cons_append]

theorem exists_requests {pieces : List (List UInt8)} (h : ∀ piece ∈ pieces, GoodLine piece) :
    ∃ requests, List.Forall₂ (fun line v => request line = .ok v) pieces requests := by
  induction pieces with
  | nil => exact ⟨[], .nil⟩
  | cons piece pieces ih =>
      obtain ⟨⟨_, v, _, _, hv⟩, hpieces⟩ := List.forall_mem_cons.mp h
      obtain ⟨requests, hrequests⟩ := ih hpieces
      exact ⟨v :: requests, .cons (request_eq_ok_iff.mpr hv) hrequests⟩

/-- What follows good lines is answered as if it came alone on a later clock. -/
theorem answer_append {pieces : List (List UInt8)} (h : ∀ piece ∈ pieces, GoodLine piece)
    (clock : Nat → Instant) (rest : List UInt8) :
    let before := answer none none clock pieces.flatten
    let after := answer none none (fun k => clock (2 * pieces.length + k)) rest
    let service := answer none none clock (pieces.flatten ++ rest)
    service.sent = before.sent ++ after.sent ∧ service.fault = after.fault := by
  obtain ⟨requests, hrequests⟩ := exists_requests h
  obtain ⟨hbefore, -⟩ := @serve_append clock 0 pieces [] requests hrequests
  obtain ⟨hsent, hfault⟩ := @serve_append clock 0 pieces (lines rest) requests hrequests
  have hlines : lines pieces.flatten = pieces := by simpa [lines] using lines_flatten_append h []
  have hlater := serve_add clock pieces.length 0 (lines rest)
  rw [Nat.add_zero] at hlater
  rw [Nat.zero_add, ← hrequests.length_eq, hlater] at hsent hfault
  rw [List.append_nil, serve, List.append_nil] at hbefore
  simp only [answer]
  rw [lines_flatten_append h rest, hlines, hbefore]
  exact ⟨hsent, hfault⟩

theorem exists_getElem?_of_forall₂ {α β : Type} {R : α → β → Prop} {as : List α} {bs : List β}
    (h : List.Forall₂ R as bs) {i : Nat} {a : α} (ha : as[i]? = some a) :
    ∃ b, bs[i]? = some b ∧ R a b := by
  obtain ⟨hi, rfl⟩ := List.getElem?_eq_some_iff.mp ha
  have hi' : i < bs.length := h.length_eq ▸ hi
  exact ⟨bs[i], List.getElem?_eq_getElem hi', h.get hi hi'⟩

/-- Whatever a client sends is answered line by line up to the first line that holds no request, and
the connection fails if there is such a line. Every reply is a line of its own that answers its
request with the two readings that were taken for it, and a client reads it as the value that was
sent, but for the doubles that are not read back. What follows complete good lines has no part in
what is answered to them. -/
theorem any_input_answered_in_order (clock : Nat → Instant) :
    (∀ input, ∃ good rest, (∀ cuts, Cut input cuts ↔ cuts = good ++ rest) ∧
      (∀ line ∈ rest.head?, ¬∃ request, IsRequest line request) ∧
      let service := answer none none clock input
      let replies := lines (Utf8.encode service.sent)
      (service.fault = none ↔ rest = []) ∧ replies.length = good.length ∧
      ∀ i line, good[i]? = some line → ∃ request reply front, IsRequest line request ∧
        replies[i]? = some (front ++ [10]) ∧ front = Utf8.encode reply.compact ∧
        (∀ b ∈ front, 0x20 ≤ b.toNat) ∧
        Answers reply request (clock (2 * i)) (clock (2 * i + 1)) ∧
        Response.ofBytes (front ++ [10]) = .ok ⟨reply.reread⟩ ∧
        ((∀ x ∈ reply.doubles, x.ReadsBack) →
          Response.ofBytes (front ++ [10]) = .ok ⟨reply⟩)) ∧
    ∀ pieces : List (List UInt8), (∀ piece ∈ pieces, GoodLine piece) → ∀ rest,
      let before := answer none none clock pieces.flatten
      let after := answer none none (fun k => clock (2 * pieces.length + k)) rest
      let service := answer none none clock (pieces.flatten ++ rest)
      service.sent = before.sent ++ after.sent ∧ service.fault = after.fault := by
  refine ⟨?_, fun pieces h rest => answer_append h clock rest⟩
  intro input
  obtain ⟨good, rest, requests, hlines, hgood, hrest⟩ := exists_first_fault (lines input)
  obtain ⟨hsent, hfault⟩ := @serve_append clock 0 good rest requests hgood
  obtain ⟨hnothing, hends⟩ := serve_of_head hrest
  rw [hnothing, List.append_nil] at hsent
  refine ⟨good.map content, rest.map content, ?_, ?_, ?_⟩
  · intro cuts
    rw [cut_iff, hlines, List.map_append]
  · intro line hline
    rw [List.head?_map] at hline
    obtain ⟨raw, hraw, rfl⟩ := Option.map_eq_some_iff.mp hline
    obtain ⟨fault, hfault⟩ := hrest raw hraw
    exact not_isRequest_of_error hfault
  · simp only [answer]
    rw [hlines, hsent, hfault, hends, lines_encode_replyLines, List.map_eq_nil_iff]
    refine ⟨Iff.rfl, ?_, ?_⟩
    · rw [List.length_map, List.length_map, length_replyLines, hgood.length_eq]
    · intro i line hline
      rw [List.getElem?_map] at hline
      obtain ⟨raw, hraw, rfl⟩ := Option.map_eq_some_iff.mp hline
      obtain ⟨v, hv, hrequest⟩ := exists_getElem?_of_forall₂ hgood hraw
      have hline := request_eq_ok_iff.mp hrequest
      refine ⟨v, reply v (clock (2 * i)) (clock (2 * i + 1)), _, hline, ?_, rfl, ?_⟩
      · rw [List.getElem?_map, getElem?_replyLines, hv, Nat.zero_add]
        exact congrArg some (encode_replyLine _ _ _)
      · exact reply_line hline _ _

end LatencyProbe.EchoServer
