import LatencyProbe.Program
import LatencyProbe.Proofs.Stages

/-!
# The two scenarios of the program

The program prints headings, and between them what each scenario prints when a new client runs it by
itself. A scenario ends with a result whatever its server does, short of staying silent, so the
first one neither keeps the second from running nor changes it.
-/

namespace LatencyProbe

/-- A server that answers unless it makes an error. -/
def Server.Settles (server : Server) : Prop :=
  ∀ request, server.answer request = none →
    server.connectError ≠ none ∨ server.sendError ≠ none ∨ server.receiveError ≠ none

theorem Server.settles_absent : absent.Settles := fun _ _ => .inl (Option.some_ne_none _)

namespace Probe

variable (config : Config) {encounter : Encounter}

/-- Only a server that does not settle keeps an exchange waiting. -/
theorem outcome_exchange_ne_pending (h : encounter.server.Settles) (body : Body) :
    (exchange config encounter body).outcome ≠ .pending := by
  intro hpending
  by_cases hfails : ∀ stage : Stage, ¬stage.Fails config encounter body
  · rcases outcome_of_forall_not_fails hfails with ⟨response, hdone⟩ | ⟨-, hanswer⟩
    · rw [hdone] at hpending
      cases hpending
    · rcases h _ hanswer with hconnect | hsend | hreceive
      · exact hfails .connecting (.inr hconnect)
      · exact hfails .sending hsend
      · exact hfails .receiving hreceive
  · obtain ⟨stage, hstage⟩ := not_forall_not.mp hfails
    obtain ⟨first, hfirst⟩ := Stage.exists_failsFirst hstage
    obtain ⟨failure, hfailed, -⟩ := outcome_of_failsFirst hfirst
    rw [hfailed] at hpending
    cases hpending

/-- A scenario ends with a result, whatever its server does. -/
theorem outcome_runScenario_of_settles (h : encounter.server.Settles) (event : Event) :
    (runScenario config encounter event).outcome = .done () := by
  have hpending := outcome_exchange_ne_pending config h event.sample
  rw [outcome_runScenario, outcome_scenario]
  cases houtcome : (exchange config encounter event.sample).outcome with
  | done _ => rfl
  | failed _ => rfl
  | pending => exact absurd houtcome hpending

/-- Where there is nobody, a scenario says so. -/
theorem output_runScenario_nobody (event : Event) :
    (runScenario {} .nobody event).transcript.output =
      "Error: connecting to localhost:27017: Connection refused (os error 111)\n" := by
  cases event <;> rfl

end Probe

namespace Program

variable {launch : Launch}

theorem settles_encounter (h : ∀ e ∈ launch.encounters, e.server.Settles) (index : Nat) :
    (launch.encounter index).server.Settles := by
  rw [Launch.encounter]
  cases hencounter : launch.encounters[index]? with
  | none => exact Server.settles_absent
  | some e => exact h e (List.mem_of_getElem? hencounter)

/-- What is printed before the first scenario. -/
def opening : String :=
  "Lag compensation probe with requestId\n" ++ separator ++ "\n\n1. Testing moveCharacter...\n"

/-- What is printed between the scenarios. -/
def heading : String := "\n" ++ separator ++ "\n\n2. Testing joinCharacter...\n"

/-- What is printed after the second scenario. -/
def closing : String := "\nProbe finished\n"

theorem output_opening (log : List Log.Entry) :
    (Transcript.mk ["Lag compensation probe with requestId", separator,
      "\n1. Testing moveCharacter..."] log []).output = opening := by
  rfl

theorem output_heading :
    (Transcript.mk ["\n" ++ separator, "\n2. Testing joinCharacter..."] [] []).output = heading :=
  rfl

theorem output_closing : (Transcript.mk ["\nProbe finished"] [] []).output = closing := rfl

/-- The program leaves behind what the scenarios do, each run by itself, and its headings. -/
theorem run_of_settles (h : ∀ e ∈ launch.encounters, e.server.Settles) :
    (run launch).outcome = .done () ∧
      (run launch).transcript.output =
        opening ++ (Probe.runScenario {} (launch.encounter 0) .move).transcript.output ++
          (heading ++ (Probe.runScenario {} (launch.encounter 1) .join).transcript.output ++
            closing) ∧
      (run launch).transcript.requests =
        (Probe.runScenario {} (launch.encounter 0) .move).transcript.requests ++
          (Probe.runScenario {} (launch.encounter 1) .join).transcript.requests := by
  have hmove := Probe.outcome_runScenario_of_settles {} (settles_encounter h 0) .move
  have hjoin := Probe.outcome_runScenario_of_settles {} (settles_encounter h 1) .join
  -- The scenarios are done, so from here on they can be any two runs that are.
  rw [run]
  generalize Probe.runScenario {} (launch.encounter 0) .move = first at hmove ⊢
  generalize Probe.runScenario {} (launch.encounter 1) .join = second at hjoin ⊢
  obtain ⟨moved, _⟩ := first
  obtain ⟨joined, _⟩ := second
  subst hmove
  subst hjoin
  refine ⟨rfl, ?_, ?_⟩
  · change (Transcript.mk [_, _, _] [_] [] ++ (moved ++ (Transcript.mk [_, _] [] [] ++
      (joined ++ Transcript.mk [_] [] [])))).output = _
    rw [Transcript.output_append, Transcript.output_append, Transcript.output_append,
      Transcript.output_append, output_opening, output_heading, output_closing]
    simp only [String.append_assoc]
  · change moved.requests ++ (joined.requests ++ []) = moved.requests ++ joined.requests
    rw [List.append_nil]

theorem encounter_one_of_drop {launch' : Launch}
    (h : launch'.encounters.drop 1 = launch.encounters.drop 1) :
    launch'.encounter 1 = launch.encounter 1 := by
  have hget := congrArg (·[0]?) h
  simp only [List.getElem?_drop] at hget
  rw [Launch.encounter, hget, Launch.encounter]

theorem encounter_of_length_le {index : Nat} (h : launch.encounters.length ≤ index) :
    launch.encounter index = .nobody := by
  rw [Launch.encounter, List.getElem?_eq_none h]
  rfl

/-- The program always succeeds and prints, between its headings, what each scenario prints by
itself. What follows the first scenario is the same whatever the first server does and whichever
log filter is asked for. -/
theorem scenarios_isolated (launch : Launch) (h : ∀ e ∈ launch.encounters, e.server.Settles) :
    (run launch).outcome.exitStatus? = some 0 ∧
    (run launch).transcript.output =
      opening ++ (Probe.runScenario {} (launch.encounter 0) .move).transcript.output ++
        (heading ++ (Probe.runScenario {} (launch.encounter 1) .join).transcript.output ++
          closing) ∧
    (∀ index, launch.encounters.length ≤ index → ∀ event,
      (Probe.runScenario {} (launch.encounter index) event).transcript.output =
        "Error: connecting to localhost:27017: Connection refused (os error 111)\n") ∧
    (∀ filter, run { launch with requestedFilter := filter } = run launch) ∧
    ∀ launch' : Launch, (∀ e ∈ launch'.encounters, e.server.Settles) →
      launch'.encounters.drop 1 = launch.encounters.drop 1 →
      ∃ rest requests, ∀ l ∈ [launch, launch'],
        (run l).transcript.output =
          opening ++ (Probe.runScenario {} (l.encounter 0) .move).transcript.output ++ rest ∧
        (run l).transcript.requests =
          (Probe.runScenario {} (l.encounter 0) .move).transcript.requests ++ requests := by
  obtain ⟨houtcome, houtput, hrequests⟩ := run_of_settles h
  refine ⟨?_, houtput, ?_, fun filter => rfl, ?_⟩
  · rw [houtcome]
    rfl
  · intro index hindex event
    rw [encounter_of_length_le hindex]
    exact Probe.output_runScenario_nobody event
  · intro launch' h' hdrop
    obtain ⟨-, houtput', hrequests'⟩ := run_of_settles h'
    rw [encounter_one_of_drop hdrop] at houtput' hrequests'
    let join := (Probe.runScenario {} (launch.encounter 1) .join).transcript
    refine ⟨heading ++ join.output ++ closing, join.requests, fun l hl => ?_⟩
    rcases List.mem_pair.mp hl with rfl | rfl
    · exact ⟨houtput, hrequests⟩
    · exact ⟨houtput', hrequests'⟩

/-- A first server that breaks off, and a second one that sends nothing at all. -/
theorem scenarios_isolated_broken :
    let epoch : Instant := ⟨0, 0⟩
    let broken : Server := { Server.silent with sendError := some ⟨32⟩ }
    let launch : Launch := ⟨some "debug", [⟨⟨epoch, epoch, epoch⟩, broken⟩,
      ⟨⟨epoch, epoch, epoch⟩, .answering fun _ => []⟩]⟩
    (∀ e ∈ launch.encounters, e.server.Settles) ∧
      (run launch).outcome.exitStatus? = some 0 := by
  intro epoch broken launch
  have hsettles : ∀ e ∈ launch.encounters, e.server.Settles := by
    intro e he
    rcases List.mem_pair.mp he with rfl | rfl
    · exact fun _ _ => .inr (.inl (Option.some_ne_none _))
    · intro request hanswer
      cases hanswer
  exact ⟨hsettles, (scenarios_isolated launch hsettles).1⟩

end Program
end LatencyProbe
