import LatencyProbe.OsError

/-!
# Servers and their addresses

What a server does is a value: which of connecting, sending and receiving fails, and what it answers
to the bytes that it was sent. A server may also stay silent for ever.

An address is checked before anything is connected to. It names a host and a port, and only the port
can be malformed.
-/

namespace LatencyProbe

/-- Where to connect to. -/
structure Address where
  host : String
  port : UInt16
  deriving DecidableEq, Repr

namespace Address

/-- Why a text is no address. -/
inductive Fault where
  | noPort
  | invalidPort
  deriving DecidableEq, Repr

/-- The message for a text that is no address. -/
def Fault.message : Fault → String
  | .noPort => "invalid socket address"
  | .invalidPort => "invalid port value"

/-- The port of a decimal number below `2 ^ 16`, with or without a plus in front. -/
def port? (text : List Char) : Option UInt16 :=
  let digits := if text.head? = some '+' then text.drop 1 else text
  let n := Nat.ofDigitChars 10 digits 0
  if !digits.isEmpty ∧ digits.all Char.isDigit ∧ n < 0x10000 then some (UInt16.ofNat n) else none

/-- The address that a text is: the last colon stands between host and port. -/
def parse (text : String) : Except Fault Address :=
  let reversed := text.toList.reverse
  match reversed.dropWhile (· ≠ ':') with
  | [] => .error .noPort
  | _ :: host =>
    match port? (reversed.takeWhile (· ≠ ':')).reverse with
    | none => .error .invalidPort
    | some port => .ok ⟨String.ofList host.reverse, port⟩

example : parse "[::1]:+080" = .ok ⟨"[::1]", 80⟩ := rfl

example : parse "localhost:" = .error .invalidPort := rfl

end Address

/-- What a server does on a connection. Of several errors the one that comes first counts. -/
structure Server where
  connectError : Option OsError
  sendError : Option OsError
  receiveError : Option OsError
  /-- The answer to the bytes sent; no answer ever comes if it is `none`. -/
  answer : List UInt8 → Option (List UInt8)

namespace Server

/-- A server that makes no errors and always answers. -/
def answering (answer : List UInt8 → List UInt8) : Server where
  connectError := none
  sendError := none
  receiveError := none
  answer request := some (answer request)

/-- A server that makes no errors and never answers. -/
def silent : Server where
  connectError := none
  sendError := none
  receiveError := none
  answer _ := none

/-- A server that is not there. -/
def absent : Server := { silent with connectError := some .connectionRefused }

/-- Why no connection comes about. -/
inductive ConnectFault where
  | address (fault : Address.Fault)
  | system (error : OsError)
  deriving DecidableEq, Repr

/-- The message for a connection that does not come about. -/
def ConnectFault.message : ConnectFault → String
  | .address fault => fault.message
  | .system error => error.message

/-- Why no connection to a server at an address comes about, if none does. The address is looked at
first. -/
def connectFault? (server : Server) (address : String) : Option ConnectFault :=
  match Address.parse address with
  | .error fault => some (.address fault)
  | .ok _ => server.connectError.map .system

end Server
end LatencyProbe
