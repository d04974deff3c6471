import LatencyProbe.Text.Decimal

/-!
# Latencies

Four intervals between the four times of an exchange. The clocks of client and server are not
compared, so any interval can be negative; the differences of two 64-bit times are exact.
-/

namespace LatencyProbe

/-- The intervals of an exchange, in milliseconds. -/
structure Latency where
  clientToServer : Int
  serverProcessing : Int
  serverToClient : Int
  roundTrip : Int
  deriving DecidableEq, Repr

namespace Latency

/-- The intervals between four times. -/
def between (clientSend serverRecv serverSend clientRecv : Int64) : Latency where
  clientToServer := serverRecv.toInt - clientSend.toInt
  serverProcessing := serverSend.toInt - serverRecv.toInt
  serverToClient := clientRecv.toInt - serverSend.toInt
  roundTrip := clientRecv.toInt - clientSend.toInt

/-- The three legs make up the round trip. -/
theorem legs_between (clientSend serverRecv serverSend clientRecv : Int64) :
    let l := between clientSend serverRecv serverSend clientRecv
    l.clientToServer + l.serverProcessing + l.serverToClient = l.roundTrip := by
  simp only [between]
  omega

/-- A line for each interval. -/
def lines (l : Latency) : List String :=
  ["Client -> Server latency: " ++ Text.ofInt l.clientToServer ++ " ms",
   "Server processing time:   " ++ Text.ofInt l.serverProcessing ++ " ms",
   "Server -> Client latency: " ++ Text.ofInt l.serverToClient ++ " ms",
   "Total round trip time:    " ++ Text.ofInt l.roundTrip ++ " ms"]

/-- The lines of the intervals, each with its line break. -/
def text (l : Latency) : String := String.join (l.lines.map (· ++ "\n"))

end Latency
end LatencyProbe
