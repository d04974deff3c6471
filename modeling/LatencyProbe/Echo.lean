import LatencyProbe.Response

/-!
# Echo fields

A server is expected to copy the request id and the send time into its response and to add the
times of its own. Each field is looked up by itself, first among the members of the header and then
among those of the body, and a member that is not acceptable counts as missing.

A time is a number of milliseconds. A signed 64-bit integer is taken as it stands. Any other number
is taken as a double, which has to be whole and in the signed range. The upper end of that range is
rounded up when it becomes a double, so the comparison with it is a strict one.
-/

namespace LatencyProbe

/-- What a response says about the request that it answers. -/
structure Echo where
  requestId : Option String
  serverRecv : Option Int64
  serverSend : Option Int64
  clientSend : Option Int64
  deriving DecidableEq, Repr

namespace Json

/-- The string that a value is. -/
def toString? : Json → Option String
  | .string s => some s
  | _ => none

namespace Number

/-- The lower end of the signed range as a double. -/
def least : Double.Finite := toDouble (.integer (-0x8000000000000000) (by decide))

/-- The upper end of the signed range as a double. -/
def greatest : Double.Finite := toDouble (.integer 0x7FFFFFFFFFFFFFFF (by decide))

/-- The time that a number is. Numbers other than signed integers are taken as doubles: these have
to be whole, at or above the one end of the range and below the other. -/
def castMillis? (n : Number) : Option Int64 :=
  match n.toInt64? with
  | some t => some t
  | none =>
    let x := n.toDouble
    if x.IsWhole ∧ least ≤ x ∧ x < greatest then some x.toInt64 else none

end Number

/-- The time in milliseconds that a value is taken for. -/
def toMillis? : Json → Option Int64
  | .number n => n.castMillis?
  | _ => none

end Json

namespace Response

/-- The first acceptable member under a key, in the header or else in the body. -/
def lookup {α : Type} (response : Response) (key : String) (accept : Json → Option α) : Option α :=
  ["header", "body"].findSome? fun part =>
    ((response.value.get? part).bind (Json.get? key)).bind accept

/-- The echo fields of a response. -/
def echo (response : Response) : Echo where
  requestId := response.lookup "requestIdEcho" Json.toString?
  serverRecv := response.lookup "serverRecvMs" Json.toMillis?
  serverSend := response.lookup "serverSendMs" Json.toMillis?
  clientSend := response.lookup "clientSendMsEcho" Json.toMillis?

end Response
end LatencyProbe
