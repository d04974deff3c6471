import LatencyProbe.Proofs.Correlation

/-!
# Latencies of a move

A move that the echo server answers reports four intervals between four clock readings, two of them
the server's. On the way there a reading loses its nanoseconds and what lies before the epoch, and
both ends print and read it; the order of readings survives all of that. A server clock that is off
moves the two legs by as much, one up and one down, and leaves the other two intervals alone.
-/

namespace LatencyProbe

namespace Instant

/-- Nanoseconds since the epoch, negative before it. -/
def totalNanos (t : Instant) : Int := t.seconds.toInt * 1000000000 + t.nanos.val

theorem totalMillis_eq (t : Instant) : t.totalMillis = (t.totalNanos / 1000000).toNat := by
  have hnanos := t.nanos.isLt
  rw [totalMillis, totalNanos]
  split <;> omega

/-- Rounding down and setting to zero before the epoch keep the order. -/
theorem totalMillis_mono {s t : Instant} (h : s.totalNanos ≤ t.totalNanos) :
    s.totalMillis ≤ t.totalMillis := by
  rw [totalMillis_eq, totalMillis_eq]
  omega

/-- Below the end of the signed range nothing is wrapped around. -/
theorem toInt_millis_of_lt {t : Instant} (h : t.totalMillis < 2 ^ 63) :
    t.millis.toInt = t.totalMillis := by
  rw [toInt_millis]
  exact Int.bmod_eq_of_le (by omega) (by omega)

/-- An instant before one that is in the range is in it as well, and its milliseconds are fewer. -/
theorem toInt_millis_le {s t : Instant} (h : s.totalNanos ≤ t.totalNanos)
    (ht : t.totalMillis < 2 ^ 63) : s.millis.toInt ≤ t.millis.toInt := by
  have hmono := totalMillis_mono h
  rw [toInt_millis_of_lt ht, toInt_millis_of_lt (hmono.trans_lt ht)]
  exact Int.ofNat_le.mpr hmono

end Instant

namespace Latency

/-- The four intervals. -/
def intervals (l : Latency) : List Int :=
  [l.clientToServer, l.serverProcessing, l.serverToClient, l.roundTrip]

theorem forall_mem_intervals {P : Int → Prop} {l : Latency} :
    (∀ interval ∈ l.intervals, P interval) ↔
      P l.clientToServer ∧ P l.serverProcessing ∧ P l.serverToClient ∧ P l.roundTrip := by
  simp [intervals]

variable {clientSend serverRecv serverSend clientRecv : Int64}

/-- The difference of two signed 64-bit numbers needs 65 bits. -/
theorem bounds_between : ∀ interval ∈
    (between clientSend serverRecv serverSend clientRecv).intervals,
      -2 ^ 64 < interval ∧ interval < 2 ^ 64 := by
  have hdifference (s t : Int64) : -2 ^ 64 < t.toInt - s.toInt ∧ t.toInt - s.toInt < 2 ^ 64 := by
    have hs := s.le_toInt
    have hs' := s.toInt_lt
    have ht := t.le_toInt
    have ht' := t.toInt_lt
    omega
  refine forall_mem_intervals.mpr ?_
  exact ⟨hdifference _ _, hdifference _ _, hdifference _ _, hdifference _ _⟩

theorem nonneg_between (hto : clientSend.toInt ≤ serverRecv.toInt)
    (hprocessing : serverRecv.toInt ≤ serverSend.toInt)
    (hback : serverSend.toInt ≤ clientRecv.toInt) :
    ∀ interval ∈ (between clientSend serverRecv serverSend clientRecv).intervals, 0 ≤ interval := by
  have htotal : clientSend.toInt ≤ clientRecv.toInt := (hto.trans hprocessing).trans hback
  refine forall_mem_intervals.mpr ?_
  exact ⟨Int.sub_nonneg_of_le hto, Int.sub_nonneg_of_le hprocessing, Int.sub_nonneg_of_le hback,
    Int.sub_nonneg_of_le htotal⟩

/-- A server clock that is off by `d` lengthens one leg by it and shortens the other. -/
theorem shift_between {serverRecv' serverSend' : Int64} {d : Int}
    (hrecv : serverRecv'.toInt = serverRecv.toInt + d)
    (hsend : serverSend'.toInt = serverSend.toInt + d) :
    between clientSend serverRecv' serverSend' clientRecv =
      let l := between clientSend serverRecv serverSend clientRecv
      { l with clientToServer := l.clientToServer + d, serverToClient := l.serverToClient - d } := by
  simp only [between, hrecv, hsend, mk.injEq, and_true]
  omega

end Latency

namespace Probe

variable {config : Config} {address : Address}

/-- The intervals that a probe with the move reports: those of its exchange, each on its line of the
report that is printed. -/
def Reports (config : Config) (encounter : Encounter) (l : Latency) : Prop :=
  ∃ result, (scenario config encounter .move).outcome = .done result ∧ result.latency = some l ∧
    l.lines <:+: Report.moveLines result

theorem Reports.unique {encounter : Encounter} {l l' : Latency} (h : Reports config encounter l)
    (h' : Reports config encounter l') : l = l' := by
  obtain ⟨result, hdone, hlatency, -⟩ := h
  obtain ⟨result', hdone', hlatency', -⟩ := h'
  rw [hdone] at hdone'
  cases hdone'
  rw [hlatency] at hlatency'
  exact Option.some.inj hlatency'

theorem lines_infix_moveLines {result : Exchange} {l : Latency} (h : result.latency = some l) :
    l.lines <:+: Report.moveLines result := by
  rw [Report.moveLines, h]
  exact (List.infix_append _ l.lines _).trans (List.suffix_append _ _).isInfix

/-- The echo server's answer to a move is one that latencies are reckoned from. -/
theorem reports_echoServer (h : Address.parse config.address = .ok address) (clock : Readings)
    (stub : Nat → Instant) :
    Reports config ⟨clock, EchoServer.server stub⟩
      (.between clock.send.millis (stub 0).millis (stub 1).millis clock.receive.millis) := by
  let encounter : Encounter := ⟨clock, EchoServer.server stub⟩
  let envelope := request config clock Event.move.sample
  have hconnect : (EchoServer.server stub).connectFault? config.address = none := by
    rw [Server.connectFault?, h]
    rfl
  have hlength := EchoServer.length_replyLine_lt envelope (stub 0) (stub 1)
    (RequestId.length_ofInstant_le _ _)
  obtain ⟨response, hresponse, hecho⟩ := EchoServer.exists_response envelope (stub 0) (stub 1)
  have hdone : (exchange config encounter Event.move.sample).outcome =
      .done (concluded config clock response) :=
    outcome_exchange_of_response config hconnect rfl rfl
      (EchoServer.server_answer_bytes stub envelope) hlength.le hresponse
  have hlatency : (concluded config clock response).latency =
      some (.between clock.send.millis (stub 0).millis (stub 1).millis clock.receive.millis) := by
    simp [Exchange.latency, Exchange.echo, concluded, hecho]
  refine ⟨concluded config clock response, ?_, hlatency, lines_infix_moveLines hlatency⟩
  rw [outcome_scenario]
  exact hdone

/-- A move that the echo server answers reports four intervals that add up and never overflow. They
are not negative if the clocks agree on the order, and of two runs whose server clocks are apart by
`d` the report differs by `d` in the two legs alone. -/
theorem echoServer_move_latencies (config : Config) (address : Address)
    (h : Address.parse config.address = .ok address) :
    (∀ clientSend serverRecv serverSend clientRecv : Int64,
      let l := Latency.between clientSend serverRecv serverSend clientRecv
      l.clientToServer + l.serverProcessing + l.serverToClient = l.roundTrip ∧
      ∀ interval ∈ l.intervals, -2 ^ 127 ≤ interval ∧ interval < 2 ^ 127) ∧
    (∀ (clock : Readings) (stub : Nat → Instant),
      ∃ l, Reports config ⟨clock, EchoServer.server stub⟩ l ∧
        l = .between clock.send.millis (stub 0).millis (stub 1).millis clock.receive.millis ∧
        (clock.send.totalNanos ≤ (stub 0).totalNanos →
          (stub 0).totalNanos ≤ (stub 1).totalNanos →
          (stub 1).totalNanos ≤ clock.receive.totalNanos →
          clock.receive.totalMillis < 2 ^ 63 → ∀ interval ∈ l.intervals, 0 ≤ interval)) ∧
    ∀ (clock : Readings) (stub stub' : Nat → Instant) (d : Int),
      (stub' 0).millis.toInt = (stub 0).millis.toInt + d →
      (stub' 1).millis.toInt = (stub 1).millis.toInt + d →
      ∀ l l', Reports config ⟨clock, EchoServer.server stub⟩ l →
        Reports config ⟨clock, EchoServer.server stub'⟩ l' →
        l'.serverProcessing = l.serverProcessing ∧ l'.roundTrip = l.roundTrip ∧
        l'.clientToServer = l.clientToServer + d ∧ l'.serverToClient = l.serverToClient - d := by
  refine ⟨?_, ?_, ?_⟩
  · intro clientSend serverRecv serverSend clientRecv
    refine ⟨Latency.legs_between _ _ _ _, fun interval hinterval => ?_⟩
    have := Latency.bounds_between interval hinterval
    omega
  · intro clock stub
    refine ⟨_, reports_echoServer h clock stub, rfl, ?_⟩
    intro hto hprocessing hback hrange
    -- Each reading is at or before the last one, so none of them is wrapped around.
    have hsendRange := (Instant.totalMillis_mono hback).trans_lt hrange
    have hrecvRange := (Instant.totalMillis_mono hprocessing).trans_lt hsendRange
    apply Latency.nonneg_between
    · exact Instant.toInt_millis_le hto hrecvRange
    · exact Instant.toInt_millis_le hprocessing hsendRange
    · exact Instant.toInt_millis_le hback hrange
  · intro clock stub stub' d hrecv hsend l l' hreports hreports'
    rw [hreports.unique (reports_echoServer h clock stub),
      hreports'.unique (reports_echoServer h clock stub'), Latency.shift_between hrecv hsend]
    exact ⟨rfl, rfl, rfl, rfl⟩

/-- From half a second before the epoch to a second after it, past a server at the epoch. -/
theorem echoServer_move_latencies_default :
    let epoch : Instant := ⟨0, 0⟩
    let clock : Readings := ⟨⟨-1, 500000000⟩, ⟨-1, 500000000⟩, ⟨1, 0⟩⟩
    Address.parse (Config.address {}) = .ok ⟨"localhost", 27017⟩ ∧
      ∃ l, Reports {} ⟨clock, EchoServer.server fun _ => epoch⟩ l ∧
        ∀ interval ∈ l.intervals, 0 ≤ interval := by
  intro epoch clock
  have hparse : Address.parse (Config.address {}) = .ok ⟨"localhost", 27017⟩ := rfl
  obtain ⟨l, hreports, -, hnonneg⟩ :=
    (echoServer_move_latencies {} _ hparse).2.1 clock fun _ => epoch
  exact ⟨hparse, l, hreports, hnonneg (by decide) (by decide) (by decide) (by decide)⟩

end Probe
end LatencyProbe
