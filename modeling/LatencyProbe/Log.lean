/-!
# Log entries

Client and echo server log what they do. An entry says how much it matters and which part of the
program it is from; who reads the log decides what to do with it.
-/

namespace LatencyProbe.Log

/-- How much an entry matters. -/
inductive Level where
  | trace
  | debug
  | error
  deriving DecidableEq, Repr

/-- The part of the program that an entry is from. -/
inductive Source where
  | client
  | scenario
  | echoServer
  deriving DecidableEq, Repr

/-- An entry of a log. -/
structure Entry where
  level : Level
  source : Source
  message : String
  deriving DecidableEq, Repr

end LatencyProbe.Log
