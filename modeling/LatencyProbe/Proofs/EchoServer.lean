import LatencyProbe.EchoServer
import LatencyProbe.Proofs.Request
import LatencyProbe.Proofs.Response

/-!
# Lines in, lines out

The echo server cuts its input at line breaks and answers line by line. Requests hold no break of
their own, and neither do replies, so any number of requests on one connection is taken apart as it
was put together and every reply belongs to its request. What a reply echoes depends on its own
request and on two clock readings alone.
-/

namespace LatencyProbe

namespace EchoServer

theorem lines_append_break {front : List UInt8} (h : ∀ b ∈ front, b ≠ 10) (rest : List UInt8) :
    lines (front ++ 10 :: rest) = (front ++ [10]) :: lines rest := by
  induction front with
  | nil => rfl
  | cons b front ih =>
      have hb : b ≠ 10 := h b (List.mem_cons_self ..)
      have hfront := ih fun c hc => h c (List.mem_cons_of_mem b hc)
      rw [List.cons_append, lines, if_neg hb, hfront]
      rfl

/-- A carriage return is dropped from a line only if it stands in front of the break. -/
theorem content_append_break {front : List UInt8} (h : front.getLast? ≠ some 13) :
    content (front ++ [10]) = front := by
  rw [content]
  rw [List.reverse_append, List.reverse_singleton, List.singleton_append]
  split
  · next rest heq =>
    refine absurd ?_ h
    rw [← List.head?_reverse, (List.cons.inj heq).2]
    rfl
  · next heq => rw [← (List.cons.inj heq).2, List.reverse_reverse]
  · next hother => exact absurd rfl (hother front.reverse)

/-- The replies to requests, the first with the clock readings `2 * index` and `2 * index + 1`. -/
def replyLines (clock : Nat → Instant) : Nat → List Json → List (List Char)
  | _, [] => []
  | index, v :: vs =>
    replyLine v (clock (2 * index)) (clock (2 * index + 1)) :: replyLines clock (index + 1) vs

theorem getElem?_replyLines (clock : Nat → Instant) (index k : Nat) (vs : List Json) :
    (replyLines clock index vs)[k]? =
      vs[k]?.map fun v =>
        replyLine v (clock (2 * (index + k))) (clock (2 * (index + k) + 1)) := by
  induction vs generalizing index k with
  | nil => rfl
  | cons v vs ih =>
      cases k with
      | zero => rfl
      | succ k =>
          have hindex : index + 1 + k = index + (k + 1) := by omega
          rw [replyLines, List.getElem?_cons_succ, List.getElem?_cons_succ, ih, hindex]

theorem length_replyLines (clock : Nat → Instant) (index : Nat) (vs : List Json) :
    (replyLines clock index vs).length = vs.length := by
  induction vs generalizing index with
  | nil => rfl
  | cons v vs ih => rw [replyLines, List.length_cons, ih, List.length_cons]

theorem exists_of_mem_replyLines {clock : Nat → Instant} {index : Nat} {vs : List Json}
    {line : List Char} (h : line ∈ replyLines clock index vs) :
    ∃ v received sent, line = replyLine v received sent := by
  induction vs generalizing index with
  | nil => cases h
  | cons v vs ih =>
      rcases List.mem_cons.mp h with rfl | h
      · exact ⟨v, _, _, rfl⟩
      · exact ih h

/-- Lines that hold requests are answered one by one, and the rest as if it came after them. -/
theorem serve_append {clock : Nat → Instant} {index : Nat} {before after : List (List UInt8)}
    {vs : List Json} (h : List.Forall₂ (fun line v => request line = .ok v) before vs) :
    (serve none clock index (before ++ after)).sent =
        (replyLines clock index vs).flatten ++
          (serve none clock (index + vs.length) after).sent ∧
      (serve none clock index (before ++ after)).fault =
        (serve none clock (index + vs.length) after).fault := by
  induction h generalizing index with
  | nil => exact ⟨rfl, rfl⟩
  | @cons line v before vs hline _ ih =>
      obtain ⟨hsent, hfault⟩ := @ih (index + 1)
      have hindex : index + 1 + vs.length = index + (v :: vs).length := by
        rw [List.length_cons]
        omega
      rw [hindex] at hsent hfault
      rw [List.cons_append, serve, hline]
      dsimp only
      rw [hsent, hfault, replyLines, List.flatten_cons, List.append_assoc]
      exact ⟨rfl, rfl⟩

/-- A request as the server has it. -/
def parsed (e : Envelope) : Json :=
  Json.collated (.object [("header", e.header.toJson), ("body", e.body.toJson.reread)])

theorem content_bytes (e : Envelope) : content e.bytes = Utf8.encode e.text := by
  rw [e.bytes_eq]
  apply content_append_break
  intro hlast
  exact absurd (e.le_of_mem_encode_text 13 (List.mem_of_getLast? hlast)) (by decide)

theorem request_bytes (e : Envelope) : request e.bytes = .ok (parsed e) := by
  have hparse : Json.parse e.text = .ok (parsed e) :=
    Json.parse_eq_ok.mpr ⟨_, e.document_text, rfl⟩
  rw [request, content_bytes, Utf8.decode_encode]
  dsimp only
  rw [hparse]

/-- A request read as a document says what its header says. -/
theorem get?_parsed (e : Envelope) :
    ((parsed e).get? "header").bind (Json.get? "requestId") =
        some (.string e.header.requestId) ∧
      ((parsed e).get? "header").bind (Json.get? "clientSendMs") =
        some (.int64 e.header.clientSend) ∧
      ((parsed e).get? "header").bind (Json.get? "eventType") =
        some (.string e.header.event.name) := by
  have hheader : (parsed e).get? "header" = some e.header.toJson.collated := by
    rw [parsed, Json.get?_collated_object]
    simp [Json.lookup_cons]
  simp only [hheader, Option.bind_some, Header.toJson, Json.get?_collated_object]
  simp [Json.lookup_cons, Event.toJson, Json.collated, Json.int64]

theorem said_parsed (e : Envelope) :
    said (parsed e) "requestId" = .string e.header.requestId ∧
      said (parsed e) "clientSendMs" = .int64 e.header.clientSend ∧
      said (parsed e) "eventType" = .string e.header.event.name := by
  obtain ⟨hid, hsend, hevent⟩ := get?_parsed e
  rw [said, said, said, hid, hsend, hevent]
  exact ⟨rfl, rfl, rfl⟩

theorem depth_reply (v : Json) (received sent : Instant) :
    (reply v received sent).depth =
      max (max (said v "clientSendMs").depth
        (max (said v "eventType").depth (said v "requestId").depth) + 1) 1 + 1 := by
  simp [reply, Json.depth, Json.depthMembers, Json.int64]

/-- A reply is a response, unless the request echoes values that are nested too deep. -/
theorem ofBytes_replyLine {v : Json} (received sent : Instant)
    (h : (reply v received sent).depth ≤ Json.maxDepth) :
    Response.ofBytes (Utf8.encode (replyLine v received sent)) =
      .ok ⟨(reply v received sent).reread.collated⟩ :=
  Response.ofBytes_compact_line h

/-- The echo fields of a reply, as a client reads them. -/
theorem echo_reply (v : Json) (received sent : Instant) :
    (Response.mk (reply v received sent).reread.collated).echo =
      { requestId := (said v "requestId").reread.collated.toString?
        serverRecv := some received.millis
        serverSend := some sent.millis
        clientSend := (said v "clientSendMs").reread.collated.toMillis? } := by
  have hheader : (reply v received sent).reread.collated.get? "header" =
      some (Json.collated (.object
        [("clientSendMsEcho", (said v "clientSendMs").reread),
         ("eventType", (said v "eventType").reread),
         ("requestIdEcho", (said v "requestId").reread),
         ("serverRecvMs", .int64 received.millis),
         ("serverSendMs", .int64 sent.millis)])) := by
    simp [reply, Json.reread, Json.rereadMembers, Json.get?_collated_object]
  have hbody : (reply v received sent).reread.collated.get? "body" =
      some (Json.collated (.object [("status", .string "ok")])) := by
    simp [reply, Json.reread, Json.rereadMembers, Json.get?_collated_object, Json.lookup_cons]
  simp [Response.echo, Response.lookup_eq, hheader, hbody, Json.get?_collated_object,
    Json.lookup_cons]

/-- The reply to a request echoes its header. -/
theorem exists_response (e : Envelope) (received sent : Instant) :
    ∃ response, Response.ofBytes (Utf8.encode (replyLine (parsed e) received sent)) = .ok response ∧
      response.echo =
        { requestId := some e.header.requestId
          serverRecv := some received.millis
          serverSend := some sent.millis
          clientSend := some e.header.clientSend } := by
  obtain ⟨hid, hsend, hevent⟩ := said_parsed e
  have hdepth : (reply (parsed e) received sent).depth ≤ Json.maxDepth := by
    rw [depth_reply, hid, hsend, hevent]
    simp [Json.depth, Json.int64, Json.maxDepth]
  refine ⟨_, ofBytes_replyLine received sent hdepth, ?_⟩
  rw [echo_reply, hid, hsend]
  simp [Json.reread, Json.collated, Json.toString?]

theorem forall₂_request (envelopes : List Envelope) :
    List.Forall₂ (fun line v => request line = .ok v) (envelopes.map Envelope.bytes)
      (envelopes.map parsed) := by
  induction envelopes with
  | nil => exact .nil
  | cons e rest ih => exact .cons (request_bytes e) ih

theorem lines_flatMap_bytes (envelopes : List Envelope) :
    lines (envelopes.flatMap Envelope.bytes) = envelopes.map Envelope.bytes := by
  induction envelopes with
  | nil => rfl
  | cons e rest ih =>
      have hbreak : ∀ b ∈ Utf8.encode e.text, b ≠ 10 := by
        rintro b hb rfl
        exact absurd (e.le_of_mem_encode_text 10 hb) (by decide)
      rw [List.flatMap_cons, e.bytes_eq, List.append_assoc, List.singleton_append,
        lines_append_break hbreak, ih, List.map_cons, e.bytes_eq]

theorem answer_flatMap_bytes (clock : Nat → Instant) (envelopes : List Envelope) :
    (answer none none clock (envelopes.flatMap Envelope.bytes)).sent =
        (replyLines clock 0 (envelopes.map parsed)).flatten ∧
      (answer none none clock (envelopes.flatMap Envelope.bytes)).fault = none := by
  have hserve := @serve_append clock 0 _ [] _ (forall₂_request envelopes)
  rw [List.append_nil] at hserve
  rw [answer, lines_flatMap_bytes, hserve.1, hserve.2]
  simp [serve]

theorem encode_replyLine (v : Json) (received sent : Instant) :
    Utf8.encode (replyLine v received sent) =
      Utf8.encode (reply v received sent).compact ++ [10] := by
  rw [replyLine, Utf8.encode_append]
  rfl

/-- The bytes that are sent are cut into the replies. -/
theorem lines_encode_replyLines (clock : Nat → Instant) (index : Nat) (vs : List Json) :
    lines (Utf8.encode (replyLines clock index vs).flatten) =
      (replyLines clock index vs).map Utf8.encode := by
  induction vs generalizing index with
  | nil => rfl
  | cons v vs ih =>
      have hbreak : ∀ b ∈ Utf8.encode
          (reply v (clock (2 * index)) (clock (2 * index + 1))).compact, b ≠ 10 := by
        rintro b hb rfl
        exact absurd ((Json.printable_compact _).le_of_mem_encode 10 hb) (by decide)
      rw [replyLines, List.flatten_cons, Utf8.encode_append, encode_replyLine, List.append_assoc,
        List.singleton_append, lines_append_break hbreak, ih, List.map_cons, encode_replyLine]

/-- Requests that are sent one after the other are taken apart as they were put together, and each
is answered on a line of its own that echoes its header. -/
theorem requests_answered_in_order (envelopes : List Envelope) (clock : Nat → Instant) :
    (∀ e ∈ envelopes, Utf8.decode e.bytes = .ok (e.text ++ ['\n']) ∧
      ∃ front, e.bytes = front ++ [10] ∧ ∀ b ∈ front, 0x20 ≤ b.toNat) ∧
    lines (envelopes.flatMap Envelope.bytes) = envelopes.map Envelope.bytes ∧
    (lines (envelopes.flatMap Envelope.bytes)).map content =
      envelopes.map (fun e => Utf8.encode e.text) ∧
    let service := answer none none clock (envelopes.flatMap Envelope.bytes)
    let replies := lines (Utf8.encode service.sent)
    service.fault = none ∧ replies.length = envelopes.length ∧
      (∀ line ∈ replies, line.getLast? = some 10) ∧
      ∀ i e, envelopes[i]? = some e → ∃ line response, replies[i]? = some line ∧
        Response.ofBytes line = .ok response ∧
        response.echo =
          { requestId := some e.header.requestId
            serverRecv := some (clock (2 * i)).millis
            serverSend := some (clock (2 * i + 1)).millis
            clientSend := some e.header.clientSend } := by
  obtain ⟨hsent, hfault⟩ := answer_flatMap_bytes clock envelopes
  have hreplies := lines_encode_replyLines clock 0 (envelopes.map parsed)
  refine ⟨?_, lines_flatMap_bytes envelopes, ?_, ?_⟩
  · intro e _
    refine ⟨?_, _, e.bytes_eq, e.le_of_mem_encode_text⟩
    exact Utf8.decode_encode e.line
  · rw [lines_flatMap_bytes, List.map_map]
    exact List.map_congr_left fun e _ => content_bytes e
  · dsimp only
    rw [hsent, hreplies]
    refine ⟨hfault, ?_, ?_, ?_⟩
    · rw [List.length_map, length_replyLines, List.length_map]
    · intro line hline
      obtain ⟨r, hr, rfl⟩ := List.mem_map.mp hline
      obtain ⟨v, received, sent, rfl⟩ := exists_of_mem_replyLines hr
      rw [encode_replyLine, List.getLast?_concat]
    · intro i e he
      obtain ⟨response, hresponse, hecho⟩ :=
        exists_response e (clock (2 * i)) (clock (2 * i + 1))
      refine ⟨_, response, ?_, hresponse, hecho⟩
      rw [List.getElem?_map, getElem?_replyLines, List.getElem?_map, he, Nat.zero_add]
      rfl

end EchoServer
end LatencyProbe
