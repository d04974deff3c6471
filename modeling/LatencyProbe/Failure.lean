import LatencyProbe.Network
import LatencyProbe.Request.Basic
import LatencyProbe.Response

/-!
# Failures

An exchange fails at the first of its stages that does. A failure says at which stage and why; its
message joins what was being done and what went wrong with colons, on one line.
-/

namespace LatencyProbe

/-- Why an exchange failed. -/
inductive Failure where
  | connecting (address : String) (fault : Server.ConnectFault)
  | sending (event : Event) (error : OsError)
  | receiving (error : OsError)
  | response (fault : Response.Fault)
  deriving DecidableEq

namespace Failure

/-- What was being done, and what went wrong. -/
def chain : Failure → List String
  | connecting address fault => ["connecting to " ++ address, fault.message]
  | sending event error => ["sending " ++ event.name, error.message]
  | receiving error => ["reading response", error.message]
  | response fault => fault.chain

/-- The text of a chain of causes, the outermost first. -/
def text (chain : List String) : String := ": ".intercalate chain

/-- The line that an operator is shown for a chain of causes. -/
def lineOf (chain : List String) : String := "Error: " ++ text chain

/-- The message for a failure. -/
def message (failure : Failure) : String := text failure.chain

/-- The line that an operator is shown. -/
def line (failure : Failure) : String := lineOf failure.chain

end Failure
end LatencyProbe
