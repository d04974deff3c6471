import LatencyProbe.Echo
import LatencyProbe.Latency

/-!
# Reports

An exchange is a request and its response as the client saw them. Its echo fields are those of the
response, so they are computed and not stored. A report is a list of lines. The pretty text of the
response is one of them and has line breaks of its own, and so may an echoed id.
-/

namespace LatencyProbe

/-- A request and its response. -/
structure Exchange where
  requestId : String
  clientSend : Int64
  clientRecv : Int64
  response : Response

namespace Exchange

/-- What the response says about the request. -/
def echo (e : Exchange) : Echo := e.response.echo

/-- The response echoes the id of the request. -/
def requestIdMatches (e : Exchange) : Bool := e.echo.requestId == some e.requestId

/-- The response echoes the send time of the request. -/
def timestampMatches (e : Exchange) : Bool := e.echo.clientSend == some e.clientSend

/-- The latencies, if the response has all three of its times. The echoed send time has to be there,
but it is the client's own that counts. -/
def latency (e : Exchange) : Option Latency :=
  match e.echo.serverRecv, e.echo.serverSend, e.echo.clientSend with
  | some serverRecv, some serverSend, some _ =>
    some (.between e.clientSend serverRecv serverSend e.clientRecv)
  | _, _, _ => none

end Exchange

namespace Report

/-- A verdict in a word. -/
def verdict (ok : Bool) : String := if ok then "SUCCESS" else "FAILURE"

/-- The text of a value that may be missing. -/
def orNone : Option String → String
  | some s => s
  | none => "None"

/-- A time in decimal. -/
def millis (t : Int64) : String := Text.ofInt t.toInt

/-- Lines joined by line breaks. -/
def ofLines (lines : List String) : String := "\n".intercalate lines

/-- The lines that tell what was received. -/
def received (e : Exchange) : List String := ["Received response:", e.response.pretty]

/-- The lines of the report on a move: the response, both sides of every echo, and the latencies
with the verdicts if there are any. -/
def moveLines (e : Exchange) : List String :=
  received e ++
  ["",
   "Lag compensation analysis:",
   "Original requestId:     " ++ e.requestId,
   "Echoed requestId:       " ++ orNone e.echo.requestId,
   "RequestId match:        " ++ (if e.requestIdMatches then "true" else "false"),
   "Client send time:       " ++ millis e.clientSend,
   "Server recv time:       " ++ orNone (e.echo.serverRecv.map millis),
   "Server send time:       " ++ orNone (e.echo.serverSend.map millis),
   "Client recv time:       " ++ millis e.clientRecv,
   "Client send echo:       " ++ orNone (e.echo.clientSend.map millis)] ++
  match e.latency with
  | some latency =>
    ["", "Timing:"] ++ latency.lines ++
    ["RequestId sync: " ++ verdict e.requestIdMatches,
     "Timestamp sync: " ++ verdict e.timestampMatches]
  | none => ["Incomplete data for lag compensation analysis"]

/-- The lines of the report on a join: the response and the verdict on the id. -/
def joinLines (e : Exchange) : List String :=
  received e ++
  [if e.requestIdMatches then "RequestId echo: SUCCESS for joinCharacter"
   else "RequestId echo: FAILURE, sent " ++ e.requestId ++ ", received " ++
     orNone e.echo.requestId]

/-- The report on a move. -/
def move (e : Exchange) : String := ofLines (moveLines e)

/-- The report on a join. -/
def join (e : Exchange) : String := ofLines (joinLines e)

end Report
end LatencyProbe
