import LatencyProbe.Clock
import LatencyProbe.Json.Parser
import LatencyProbe.Log
import LatencyProbe.Network

/-!
# The echo server

A server to probe: it answers every line of a connection with what the line says about itself and
with its own two times. The clock is read when a line has come and again when it is answered. A line
that is no document ends the connection; the answers before it have been sent.

A line ends with a line break, and a carriage return before the break is dropped with it. What
follows the last break is a line if it is not empty. Lines are cut before they are known to be text,
so a character that a break cuts short is one that the line ends inside of.
-/

namespace LatencyProbe.EchoServer

/-- The lines of a connection, with their breaks. -/
def lines : List UInt8 → List (List UInt8)
  | [] => []
  | b :: rest =>
    if b = 10 then [b] :: lines rest
    else
      match lines rest with
      | [] => [[b]]
      | line :: more => (b :: line) :: more

theorem flatten_lines (bytes : List UInt8) : (lines bytes).flatten = bytes := by
  fun_induction lines bytes <;> simp_all

/-- A line without its break. -/
def content (line : List UInt8) : List UInt8 :=
  match line.reverse with
  | 10 :: 13 :: rest => rest.reverse
  | 10 :: rest => rest.reverse
  | _ => line

example : content [0x61, 13, 10] = [0x61] := rfl

example : content [0x61, 13] = [0x61, 13] := rfl

/-- Why a connection is ended. -/
inductive Fault where
  | system (error : OsError)
  | notText (fault : Utf8.Fault)
  | notJson (error : Json.Error)
  deriving DecidableEq

/-- The message for a connection that is ended. -/
def Fault.message : Fault → String
  | .system error => error.message
  | .notText fault => fault.message
  | .notJson error => error.message

/-- The request on a line. -/
def request (line : List UInt8) : Except Fault Json :=
  match Utf8.decode (content line) with
  | .error fault => .error (.notText fault)
  | .ok text =>
    match Json.parse text with
    | .error error => .error (.notJson error)
    | .ok value => .ok value

/-- What the header of a request says under a key, null if it says nothing. -/
def said (request : Json) (key : String) : Json :=
  ((request.get? "header").bind (Json.get? key)).getD .null

/-- The answer to a request that came and is answered at given times. -/
def reply (request : Json) (received sent : Instant) : Json := .object
  [("body", .object [("status", .string "ok")]),
   ("header", .object
    [("clientSendMsEcho", said request "clientSendMs"),
     ("eventType", said request "eventType"),
     ("requestIdEcho", said request "requestId"),
     ("serverRecvMs", .int64 received.millis),
     ("serverSendMs", .int64 sent.millis)])]

/-- The line that answers a request. -/
def replyLine (request : Json) (received sent : Instant) : List Char :=
  (reply request received sent).compact ++ ['\n']

/-- What came of a connection: the text sent, the log, and why it was ended, if it was. -/
structure Service where
  sent : List Char
  log : List Log.Entry
  fault : Option Fault

/-- Answers lines, the first of them with the clock readings `2 * index` and `2 * index + 1`. -/
def serve (sendError : Option OsError) (clock : Nat → Instant) (index : Nat) :
    List (List UInt8) → Service
  | [] => ⟨[], [], none⟩
  | line :: rest =>
    match request line with
    | .error fault => ⟨[], [], some fault⟩
    | .ok request =>
      let entry : Log.Entry :=
        ⟨.trace, .echoServer, "Received: " ++ String.ofList request.compact⟩
      match sendError with
      | some error => ⟨[], [entry], some (.system error)⟩
      | none =>
        let next := serve sendError clock (index + 1) rest
        ⟨replyLine request (clock (2 * index)) (clock (2 * index + 1)) ++ next.sent,
          entry :: next.log, next.fault⟩

/-- Answers what a client has sent before it ended its side. Receiving fails before there is a
line. -/
def answer (receiveError sendError : Option OsError) (clock : Nat → Instant)
    (input : List UInt8) : Service :=
  match receiveError with
  | some error => ⟨[], [], some (.system error)⟩
  | none => serve sendError clock 0 (lines input)

/-- The echo server as the server of an exchange. -/
def server (clock : Nat → Instant) : Server :=
  .answering fun request => Utf8.encode (answer none none clock request).sent

end LatencyProbe.EchoServer
