import LatencyProbe.Program
import Std.Async.DNS
import Std.Async.TCP

/-!
# The command line

What the program prints is a function of what it meets. The command line therefore only has to meet
servers: it connects, sends and receives, notes the errors and the clock, and prints what the run on
its notes has printed so far.
-/

namespace LatencyProbe.CommandLine

open Std.Async TCP

/-- The number that an error carries. -/
def carried : IO.Error → UInt32
  | .alreadyExists _ code _ | .otherError code _ | .resourceBusy code _
  | .resourceVanished code _ | .unsupportedOperation code _ | .hardwareFault code _
  | .unsatisfiedConstraints code _ | .illegalOperation code _ | .protocolError code _
  | .timeExpired code _ | .interrupted _ code _ | .noFileOrDirectory _ code _
  | .invalidArgument _ code _ | .permissionDenied _ code _ | .resourceExhausted _ code _
  | .inappropriateType _ code _ | .noSuchThing _ code _ => code
  | .unexpectedEof | .userError _ => 0

/-- The error of the system that an error stands for. The event loop negates its numbers. -/
def systemError (error : IO.Error) : OsError := ⟨(carried error).toInt32.toInt.natAbs⟩

/-- The result of an action, or the error of the system that it came to. -/
def attempt {α : Type} (action : IO α) : IO (Except OsError α) :=
  try return .ok (← action)
  catch error => return .error (systemError error)

/-- Reads the wall clock. -/
def now : IO Instant := do
  let reading := (← Std.Time.Timestamp.now).val
  let nanos : Int := reading.second.val * 1000000000 + reading.nano.val
  return ⟨Int64.ofInt (nanos / 1000000000), ⟨(nanos % 1000000000).toNat, by omega⟩⟩

/-- Connects to the first address of a host that lets it. -/
def connect (address : Address) : IO Socket.Client := do
  let hosts ← (DNS.getAddrInfo address.host (toString address.port)).block
  let socket (host : Std.Net.IPAddr) : IO Socket.Client := do
    let client ← Socket.Client.mk
    let target : Std.Net.SocketAddress :=
      match host with
      | .v4 host => .v4 ⟨host, address.port⟩
      | .v6 host => .v6 ⟨host, address.port⟩
    (client.connect target).block
    return client
  let nowhere : IO Socket.Client :=
    throw (.noSuchThing none (UInt32.ofInt OsError.connectionRefused.code) "no address")
  hosts.toList.foldr (fun host others => try socket host catch error =>
    try others catch _ => throw error) nowhere

/-- Meets the server at the address of a client with a request. Once the request is out, it hands on
what there is so far. -/
def meet (config : Probe.Config) (body : Body) (progress : Probe.Encounter → IO Unit) :
    IO Probe.Encounter := do
  let some address := (Address.parse config.address).toOption | return .nobody
  match ← attempt (connect address) with
  | .error error => return { Probe.Encounter.nobody with server.connectError := some error }
  | .ok socket =>
    let identify ← now
    let send ← now
    let clock : Probe.Readings := ⟨identify, send, send⟩
    let request := (Probe.request config clock body).bytes
    match ← attempt (socket.send ⟨request.toArray⟩).block with
    | .error error => return ⟨clock, { Server.silent with sendError := some error }⟩
    | .ok () =>
      progress ⟨clock, .silent⟩
      match ← attempt (socket.recv? Probe.bufferSize.toUInt64).block with
      | .error error => return ⟨clock, { Server.silent with receiveError := some error }⟩
      | .ok received =>
        let receive ← now
        let answer := (received.map (·.toList)).getD []
        return ⟨{ clock with receive }, .answering fun _ => answer⟩

/-- Prints what a run has printed beyond so many texts, and counts what it has printed by now. -/
def printFrom (count : Nat) (run : Run Unit) : IO Nat := do
  let printed := run.transcript.printed
  for text in printed.drop count do
    IO.println text
  return max count printed.length

/-- Probes with both scenarios, and says how the program ends. -/
def run : IO UInt32 := do
  let config : Probe.Config := { }
  let count ← IO.mkRef 0
  let report (encounters : List Probe.Encounter) : IO Unit := do
    count.set (← printFrom (← count.get) (Program.run ⟨none, encounters⟩))
  let first ← meet config Event.move.sample fun encounter => report [encounter]
  let second ← meet config Event.join.sample fun encounter => report [first, encounter]
  report [first, second]
  return (Program.run ⟨none, [first, second]⟩).outcome.exitStatus?.getD 0

end LatencyProbe.CommandLine

/-- Probes the server at the default address. -/
def main : IO UInt32 := LatencyProbe.CommandLine.run
