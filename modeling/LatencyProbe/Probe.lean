import LatencyProbe.Report
import LatencyProbe.Request.Format
import LatencyProbe.RequestId
import LatencyProbe.Run

/-!
# Probing a server

A probe opens a connection, sends one request and reads once, at most as many bytes as its buffer
holds. There is no deadline and nothing is put together from several reads: what a server does not
send at once is lost, and a silent server is waited for.

The clock is read three times, for the id of the request, for its send time, and when the answer has
come. The two scenarios probe with a fixed body each; their reports and failures are printed, so
that a scenario itself never fails.
-/

namespace LatencyProbe

namespace Probe

/-- Where to connect to and which session the requests belong to. -/
structure Config where
  address : String := "localhost:27017"
  session : UInt64 := 123
  deriving DecidableEq, Repr

/-- How many bytes of an answer are read. -/
def bufferSize : Nat := 4096

/-- The clock readings of an exchange. -/
structure Readings where
  identify : Instant
  send : Instant
  receive : Instant
  deriving DecidableEq, Repr

/-- What an exchange meets: the clock as it goes, and a server. -/
structure Encounter where
  clock : Readings
  server : Server

/-- No server is there. Its clock stands at the epoch and is not read. -/
def Encounter.nobody : Encounter :=
  let epoch : Instant := ⟨0, 0⟩
  ⟨⟨epoch, epoch, epoch⟩, .absent⟩

/-- Sets a client up. -/
def start (config : Config) : Run Unit :=
  .log .trace .client ("Creating probe client for " ++ config.address ++ " with session_id: " ++
    Text.ofInt config.session.toNat)

/-- The request that is made at given times. -/
def request (config : Config) (clock : Readings) (body : Body) : Envelope :=
  .make (RequestId.ofInstant clock.identify config.session) clock.send.millis body

/-- Connects to a server. -/
def connect (config : Config) (server : Server) : Run Unit := do
  Run.refuse (.connecting config.address) (server.connectFault? config.address)
  Run.print ("Connected to chunk server at " ++ config.address)

/-- Sends a request. A server that breaks off meanwhile has received nothing of it. -/
def send (server : Server) (envelope : Envelope) : Run Unit := do
  let event := envelope.header.event
  Run.log .debug .client ("Sending " ++ event.name ++ ": " ++ String.ofList envelope.text)
  Run.request (if server.sendError.isSome then [] else envelope.bytes)
  Run.refuse (.sending event) server.sendError
  Run.print envelope.sentSummary

/-- Reads once from a server that was sent some bytes. -/
def receive (config : Config) (server : Server) (sent : List UInt8) : Run (List UInt8) := do
  Run.refuse .receiving server.receiveError
  match server.answer sent with
  | none => Run.wait
  | some answer =>
    let received := answer.take bufferSize
    Run.log .trace .client ("Received " ++ Text.ofInt received.length ++ " bytes from " ++
      config.address)
    return received

/-- Sends a body in a request and reads the response. -/
def exchange (config : Config) (encounter : Encounter) (body : Body) : Run Exchange := do
  let envelope := request config encounter.clock body
  connect config encounter.server
  send encounter.server envelope
  let received ← receive config encounter.server envelope.bytes
  let response ← Run.check .response (Response.ofBytes received)
  return {
    requestId := envelope.header.requestId
    clientSend := envelope.header.clientSend
    clientRecv := encounter.clock.receive.millis
    response := response }

end Probe

/-- The body that a scenario probes with. -/
def Event.sample : Event → Body
  | .move => .move .sample
  | .join => .join .sample

/-- The report on an exchange of a scenario. -/
def Event.report : Event → Exchange → String
  | .move => Report.move
  | .join => Report.join

namespace Probe

/-- Probes with the body of a scenario. -/
def scenario (config : Config) (encounter : Encounter) (event : Event) : Run Exchange := do
  Run.log .trace .scenario ("Probing " ++ event.name ++ " on " ++ config.address)
  exchange config encounter event.sample

/-- Prints a report after an empty line. -/
def printReport (event : Event) (exchange : Exchange) : Run Unit :=
  Run.print ("\n" ++ event.report exchange)

/-- Logs and prints a failure. -/
def printFailure (event : Event) (failure : Failure) : Run Unit := do
  Run.log .error .scenario (event.name ++ " probe failed: " ++ failure.message)
  Run.print failure.line

/-- Probes with the body of a scenario and prints what came of it. -/
def runScenario (config : Config) (encounter : Encounter) (event : Event) : Run Unit :=
  (scenario config encounter event).settle (printReport event) (printFailure event)

end Probe
end LatencyProbe
