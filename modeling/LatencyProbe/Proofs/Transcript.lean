import LatencyProbe.Proofs.Exchange

/-!
# What a run leaves behind

The transcript of a sequence is that of its parts, up to the first part that does not end with a
result. How an exchange ends is said elsewhere; here it is what it has printed and sent by then,
which its first two stages decide, and that it logs no error. Errors are logged only when a scenario
reports its failure.
-/

namespace LatencyProbe

namespace Transcript

/-- The errors in the log. -/
def errors (t : Transcript) : List Log.Entry := t.log.filter (·.level = .error)

@[simp] theorem errors_append (s t : Transcript) :
    (s ++ t).errors = s.errors ++ t.errors := by
  rw [errors, log_append, List.filter_append, errors, errors]

@[simp] theorem output_append (s t : Transcript) :
    (s ++ t).output = s.output ++ t.output := by
  rw [output, printed_append, List.map_append, String.join_append, output, output]

end Transcript

namespace Probe

variable {α β : Type}

theorem transcript_bind (x : Run α) (f : α → Run β) :
    (x >>= f).transcript =
      match x.outcome with
      | .done a => x.transcript ++ (f a).transcript
      | _ => x.transcript := by
  obtain ⟨t, _ | _ | _⟩ := x
  · rfl
  · exact Transcript.append_empty t
  · rfl

theorem transcript_bind_of_done {x : Run α} {a : α} (h : x.outcome = .done a) (f : α → Run β) :
    (x >>= f).transcript = x.transcript ++ (f a).transcript := by
  rw [transcript_bind, h]

/-- A run that at most logs, and no errors. -/
def Quiet (x : Run α) : Prop :=
  x.transcript.printed = [] ∧ x.transcript.requests = [] ∧ x.transcript.errors = []

theorem Quiet.bind {x : Run α} {f : α → Run β} (hx : Quiet x) (hf : ∀ a, Quiet (f a)) :
    Quiet (x >>= f) := by
  obtain ⟨hprinted, hrequests, herrors⟩ := hx
  rw [Quiet, transcript_bind]
  split
  · next a _ =>
    obtain ⟨hprinted', hrequests', herrors'⟩ := hf a
    refine ⟨?_, ?_, ?_⟩
    · rw [Transcript.printed_append, hprinted, hprinted', List.append_nil]
    · rw [Transcript.requests_append, hrequests, hrequests', List.append_nil]
    · rw [Transcript.errors_append, herrors, herrors', List.append_nil]
  · exact ⟨hprinted, hrequests, herrors⟩

theorem quiet_log {level : Log.Level} (h : level ≠ .error) (source : Log.Source)
    (message : String) : Quiet (Run.log level source message) := by
  refine ⟨rfl, rfl, ?_⟩
  exact List.filter_cons_of_neg (by simpa using h)

theorem quiet_done (a : α) : Quiet (Run.done a) := ⟨rfl, rfl, rfl⟩

theorem quiet_refuse {ε : Type} (failure : ε → Failure) (fault : Option ε) :
    Quiet (Run.refuse failure fault) := by
  cases fault <;> exact ⟨rfl, rfl, rfl⟩

theorem quiet_check {ε : Type} (failure : ε → Failure) (result : Except ε α) :
    Quiet (Run.check failure result) := by
  cases result <;> exact ⟨rfl, rfl, rfl⟩

variable (config : Config) (server : Server) (envelope : Envelope)

theorem transcript_connect :
    (connect config server).transcript =
      match server.connectFault? config.address with
      | none => ⟨["Connected to chunk server at " ++ config.address], [], []⟩
      | some _ => .empty := by
  rw [connect, transcript_bind, outcome_refuse]
  cases server.connectFault? config.address <;> rfl

/-- The log entry that a request is announced with. -/
def announcement (envelope : Envelope) : Log.Entry :=
  ⟨.debug, .client,
    "Sending " ++ envelope.header.event.name ++ ": " ++ String.ofList envelope.text⟩

theorem transcript_send :
    (send server envelope).transcript =
      match server.sendError with
      | none => ⟨[envelope.sentSummary], [announcement envelope], [envelope.bytes]⟩
      | some _ => ⟨[], [announcement envelope], [[]]⟩ := by
  rw [send, transcript_bind_of_done rfl, transcript_bind_of_done rfl, transcript_bind,
    outcome_refuse]
  cases server.sendError <;> rfl

theorem quiet_receive (sent : List UInt8) : Quiet (receive config server sent) := by
  refine (quiet_refuse _ _).bind fun _ => ?_
  split
  · exact ⟨rfl, rfl, rfl⟩
  · exact (quiet_log (by decide) _ _).bind fun _ => quiet_done _

variable (encounter : Encounter) (body : Body)

/-- Two stages print and send; what comes after them at most logs. -/
theorem exchange_eq :
    ∃ conclude : Unit → Run Exchange, (∀ u, Quiet (conclude u)) ∧
      exchange config encounter body =
        connect config encounter.server >>= fun _ =>
          send encounter.server (request config encounter.clock body) >>= conclude := by
  refine ⟨_, fun _ => ?_, rfl⟩
  exact (quiet_receive config encounter.server _).bind fun _ =>
    (quiet_check _ _).bind fun _ => quiet_done _

/-- What an exchange has printed and sent when it ends, and that it logs no error. -/
theorem transcript_exchange :
    ∃ log, (Transcript.mk [] log []).errors = [] ∧
      (exchange config encounter body).transcript =
        match encounter.server.connectFault? config.address with
        | some _ => ⟨[], log, []⟩
        | none =>
          match encounter.server.sendError with
          | some _ => ⟨["Connected to chunk server at " ++ config.address], log, [[]]⟩
          | none =>
            ⟨["Connected to chunk server at " ++ config.address,
              (request config encounter.clock body).sentSummary], log,
              [(request config encounter.clock body).bytes]⟩ := by
  obtain ⟨conclude, hquiet, heq⟩ := exchange_eq config encounter body
  rw [heq, transcript_bind, outcome_connect, transcript_connect]
  cases encounter.server.connectFault? config.address with
  | some fault => exact ⟨[], rfl, rfl⟩
  | none =>
      dsimp only
      rw [transcript_bind, outcome_send, transcript_send]
      cases encounter.server.sendError with
      | some error => exact ⟨[announcement _], rfl, rfl⟩
      | none =>
          obtain ⟨hprinted, hrequests, herrors⟩ := hquiet ()
          refine ⟨announcement (request config encounter.clock body) ::
            (conclude ()).transcript.log, herrors, ?_⟩
          ext1 <;> simp [hprinted, hrequests]

variable (event : Event)

/-- A scenario prints and sends what its exchange does, and only adds a note to the log. -/
theorem transcript_scenario :
    (scenario config encounter event).transcript.printed =
        (exchange config encounter event.sample).transcript.printed ∧
      (scenario config encounter event).transcript.requests =
        (exchange config encounter event.sample).transcript.requests ∧
      (scenario config encounter event).transcript.errors =
        (exchange config encounter event.sample).transcript.errors := by
  rw [scenario, transcript_bind_of_done rfl]
  refine ⟨rfl, rfl, ?_⟩
  rw [Transcript.errors_append, (quiet_log (by decide) _ _).2.2, List.nil_append]

theorem outcome_runScenario :
    (runScenario config encounter event).outcome =
      match (scenario config encounter event).outcome with
      | .pending => .pending
      | _ => .done () := by
  rw [runScenario, Run.settle]
  cases (scenario config encounter event).outcome <;> rfl

/-- A report or a failure is added to what the scenario has left behind. -/
theorem transcript_runScenario :
    (runScenario config encounter event).transcript =
      match (scenario config encounter event).outcome with
      | .done exchange =>
        (scenario config encounter event).transcript ++ ⟨["\n" ++ event.report exchange], [], []⟩
      | .failed failure =>
        (scenario config encounter event).transcript ++
          ⟨[failure.line],
            [⟨.error, .scenario, event.name ++ " probe failed: " ++ failure.message⟩], []⟩
      | .pending => (scenario config encounter event).transcript := by
  rw [runScenario, Run.settle]
  cases (scenario config encounter event).outcome <;> rfl

end Probe
end LatencyProbe
