import LatencyProbe.Probe

/-!
# The program

The program probes with both scenarios, each on a connection of its own, and prints what came of
them between headings. Neither can keep the other from running.
-/

namespace LatencyProbe.Program

/-- The line between the scenarios. -/
def separator : String := String.ofList (List.replicate 60 '=')

/-- What the program starts with. Connections are met in order, and after the last one there is
nobody to connect to. -/
structure Launch where
  /-- The log filter asked for, if one is. -/
  requestedFilter : Option String
  encounters : List Probe.Encounter

/-- The log filter in force: the one asked for, or else the one that leaves out details. -/
def Launch.logFilter (launch : Launch) : String := launch.requestedFilter.getD "info"

/-- What is met on a connection. -/
def Launch.encounter (launch : Launch) (index : Nat) : Probe.Encounter :=
  launch.encounters[index]?.getD .nobody

/-- Runs both scenarios as the default client. The whole log is kept, whatever the filter. -/
def run (launch : Launch) : Run Unit := do
  let config : Probe.Config := { }
  Probe.start config
  Run.print "Lag compensation probe with requestId"
  Run.print separator
  Run.print "\n1. Testing moveCharacter..."
  Probe.runScenario config (launch.encounter 0) .move
  Run.print ("\n" ++ separator)
  Run.print "\n2. Testing joinCharacter..."
  Probe.runScenario config (launch.encounter 1) .join
  Run.print "\nProbe finished"

end LatencyProbe.Program

namespace LatencyProbe

/-- The exit status of a program that ends this way, if it ends. -/
def Outcome.exitStatus? {α : Type} : Outcome α → Option UInt32
  | .done _ => some 0
  | .failed _ => some 1
  | .pending => none

end LatencyProbe
