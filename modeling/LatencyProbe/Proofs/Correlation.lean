import LatencyProbe.Proofs.EchoServer
import LatencyProbe.Proofs.Exchange

/-!
# Probing the echo server

A probe of the echo server always ends with a response, which says of the request what the request
said of itself. The reply fits the buffer whatever the times are: all that varies in it are the id,
which is as long as the numbers in it, and three times.
-/

namespace LatencyProbe

namespace Text

theorem length_decimal_le {n : Int} {k : Nat} (hk : 0 < k) (h : n.natAbs < 10 ^ k) :
    (Text.decimal n).length ≤ k + 1 := by
  have hdigits := (Nat.length_toDigits_le_iff (by decide : 1 < 10) hk).mpr h
  cases n with
  | ofNat n => exact hdigits.trans (Nat.le_succ k)
  | negSucc n => exact Nat.succ_le_succ hdigits

theorem length_decimal_int64_le (n : Int64) : (Text.decimal n.toInt).length ≤ 20 := by
  have hlow := n.le_toInt
  have hhigh := n.toInt_lt
  exact Text.length_decimal_le (by decide) (by omega)

end Text

theorem Utf8.size_le (cs : List Char) : Utf8.size cs ≤ 4 * cs.length := by
  induction cs with
  | nil => exact Nat.le_refl 0
  | cons c cs ih =>
      have := c.utf8Size_le_four
      rw [Utf8.size, List.length_cons]
      omega

namespace Json

theorem length_escape_le (c : Char) : (escape c).length ≤ 6 := by
  rw [escape]
  split_ifs <;> simp

theorem length_quote_le (s : String) : (quote s).length ≤ 6 * s.toList.length + 2 := by
  have h (cs : List Char) : (cs.flatMap escape).length ≤ 6 * cs.length := by
    induction cs with
    | nil => exact Nat.le_refl 0
    | cons c cs ih =>
        have := length_escape_le c
        rw [List.flatMap_cons, List.length_append, List.length_cons]
        omega
  have := h s.toList
  simp only [quote, List.length_cons, List.length_append, List.length_nil]
  omega

end Json

theorem RequestId.length_ofInstant_le (t : Instant) (session : UInt64) :
    (RequestId.ofInstant t session).toList.length ≤ 70 := by
  have hmillis := Text.length_decimal_int64_le t.millis
  have hsession : (Text.decimal session.toNat).length ≤ 21 := by
    have := session.toNat_lt
    exact Text.length_decimal_le (by decide) (by omega)
  have hsequence : (Text.decimal (RequestId.sequenceNumber t.millis)).length ≤ 5 := by
    apply Text.length_decimal_le (by decide)
    rw [RequestId.sequenceNumber, Int.natAbs_tmod]
    exact Nat.mod_lt _ (by decide)
  have hchecksum : (RequestId.checksum (RequestId.seed t.millis session)).length ≤ 8 :=
    List.length_take_le _ _
  simp only [RequestId.ofInstant, RequestId.ofMillis, String.toList_ofList, List.length_cons,
    List.length_append, RequestId.seed] at hchecksum ⊢
  omega

namespace EchoServer

theorem length_reply_le (e : Envelope) (received sent : Instant) :
    (reply (parsed e) received sent).compact.length ≤
      6 * e.header.requestId.toList.length + 250 := by
  obtain ⟨hid, hsend, hevent⟩ := said_parsed e
  have hname : (Json.quote e.header.event.name).length = 15 := by
    cases e.header.event <;> rfl
  have hquote := Json.length_quote_le e.header.requestId
  have hclient := Text.length_decimal_int64_le e.header.clientSend
  have hreceived := Text.length_decimal_int64_le received.millis
  have hsent := Text.length_decimal_int64_le sent.millis
  have hkeys : (Json.quote "body").length = 6 ∧ (Json.quote "header").length = 8 ∧
      (Json.quote "status").length = 8 ∧ (Json.quote "ok").length = 4 ∧
      (Json.quote "clientSendMsEcho").length = 18 ∧ (Json.quote "eventType").length = 11 ∧
      (Json.quote "requestIdEcho").length = 15 ∧ (Json.quote "serverRecvMs").length = 14 ∧
      (Json.quote "serverSendMs").length = 14 := ⟨rfl, rfl, rfl, rfl, rfl, rfl, rfl, rfl, rfl⟩
  simp only [reply, hid, hsend, hevent, Json.compact, Json.render, Json.renderMembers,
    Json.Layout.compact, Json.int64, Json.Number.text, List.length_cons, List.length_append,
    List.length_nil]
  omega

theorem length_replyLine_lt (e : Envelope) (received sent : Instant)
    (h : e.header.requestId.toList.length ≤ 70) :
    (Utf8.encode (replyLine (parsed e) received sent)).length < Probe.bufferSize := by
  have hreply := length_reply_le e received sent
  have hsize := Utf8.size_le (replyLine (parsed e) received sent)
  rw [replyLine, List.length_append, List.length_singleton] at hsize
  rw [Utf8.length_encode, replyLine, Probe.bufferSize]
  omega

/-- The server's answer to one request is one reply. -/
theorem server_answer_bytes (clock : Nat → Instant) (e : Envelope) :
    (server clock).answer e.bytes =
      some (Utf8.encode (replyLine (parsed e) (clock 0) (clock 1))) := by
  have hsent := (answer_flatMap_bytes clock [e]).1
  rw [List.flatMap_singleton] at hsent
  change some (Utf8.encode (answer none none clock e.bytes).sent) = _
  rw [hsent, List.map_singleton, replyLines, replyLines, List.flatten_cons, List.flatten_nil,
    List.append_nil]

end EchoServer

namespace Probe

theorem join_eq (e : Exchange) :
    ∃ front, Report.join e = front ++ "\n" ++
      (if e.requestIdMatches then "RequestId echo: SUCCESS for joinCharacter"
       else "RequestId echo: FAILURE, sent " ++ e.requestId ++ ", received " ++
         Report.orNone e.echo.requestId) :=
  ⟨_, rfl⟩

/-- A probe of the echo server ends with a response that fits the buffer and echoes the request's
id, its send time, and the server's two clock readings. -/
theorem scenario_echoServer_correlates (config : Config) (address : Address)
    (h : Address.parse config.address = .ok address) (clock : Readings) (stub : Nat → Instant)
    (event : Event) :
    ∃ reply exchange,
      (EchoServer.server stub).answer (request config clock event.sample).bytes = some reply ∧
      reply.length < bufferSize ∧
      (scenario config ⟨clock, EchoServer.server stub⟩ event).outcome = .done exchange ∧
      Response.ofBytes reply = .ok exchange.response ∧
      exchange.requestId = RequestId.ofInstant clock.identify config.session ∧
      exchange.clientSend = clock.send.millis ∧
      exchange.clientRecv = clock.receive.millis ∧
      exchange.echo =
        { requestId := some (RequestId.ofInstant clock.identify config.session)
          serverRecv := some (stub 0).millis
          serverSend := some (stub 1).millis
          clientSend := some clock.send.millis } ∧
      exchange.requestIdMatches = true ∧
      exchange.timestampMatches = true ∧
      exchange.latency = some (.between clock.send.millis (stub 0).millis (stub 1).millis
        clock.receive.millis) ∧
      ∃ front,
        Report.join exchange = front ++ "\n" ++ "RequestId echo: SUCCESS for joinCharacter" := by
  have hanswer := EchoServer.server_answer_bytes stub (request config clock event.sample)
  have hlength := EchoServer.length_replyLine_lt (request config clock event.sample) (stub 0)
    (stub 1) (RequestId.length_ofInstant_le _ _)
  obtain ⟨response, hresponse, hecho⟩ :=
    EchoServer.exists_response (request config clock event.sample) (stub 0) (stub 1)
  generalize Utf8.encode (EchoServer.replyLine _ (stub 0) (stub 1)) = reply
    at hanswer hlength hresponse
  have hconnect : (EchoServer.server stub).connectFault? config.address = none := by
    rw [Server.connectFault?, h]
    rfl
  have houtcome : (scenario config ⟨clock, EchoServer.server stub⟩ event).outcome =
      .done (concluded config clock response) := by
    rw [outcome_scenario]
    exact outcome_exchange_of_response config hconnect rfl rfl hanswer hlength.le hresponse
  have hmatches : (concluded config clock response).requestIdMatches = true := by
    simp [Exchange.requestIdMatches, Exchange.echo, concluded, hecho, request, Envelope.make]
  obtain ⟨front, hjoin⟩ := join_eq (concluded config clock response)
  rw [hmatches, if_pos rfl] at hjoin
  refine ⟨reply, _, hanswer, hlength, houtcome, hresponse, rfl, rfl, rfl, hecho, hmatches, ?_, ?_,
    front, hjoin⟩
  · simp [Exchange.timestampMatches, Exchange.echo, concluded, hecho, request, Envelope.make]
  · simp [Exchange.latency, Exchange.echo, concluded, hecho]

/-- The default address is one that connects; here every clock stands still before the epoch. -/
theorem scenario_echoServer_correlates_default :
    let before : Instant := ⟨-1, 0⟩
    Address.parse (Config.address {}) = .ok ⟨"localhost", 27017⟩ ∧
      ∃ exchange, (scenario {} ⟨⟨before, before, before⟩, EchoServer.server fun _ => before⟩
        .move).outcome = .done exchange ∧ exchange.requestIdMatches = true := by
  intro before
  have hparse : Address.parse "localhost:27017" = .ok ⟨"localhost", 27017⟩ := rfl
  obtain ⟨_, exchange, _, _, hdone, _, _, _, _, _, hmatches, _⟩ :=
    scenario_echoServer_correlates {} _ hparse ⟨before, before, before⟩ (fun _ => before) .move
  exact ⟨hparse, exchange, hdone, hmatches⟩

end Probe
end LatencyProbe
