import LatencyProbe.Proofs.Failure
import LatencyProbe.Proofs.Language
import LatencyProbe.Proofs.Request
import LatencyProbe.Proofs.Transcript
import Mathlib.Order.WellFounded

/-!
# The stages of an exchange

An exchange connects, sends, receives, takes the answer for a text and the text for a document.
Whether a stage can succeed is a matter of what is met there and not of the others, so several may
be bound to fail at once. The first of them is the one that an operator is told about, on one line,
and it decides what has been printed and sent by then.
-/

namespace LatencyProbe

/-- An answer that holds a document which is not nested too deep and has no number out of range. -/
def Response.Readable (bytes : List UInt8) : Prop :=
  ∃ t, Holds bytes t ∧ t.depth ≤ Json.maxDepth ∧ t.InRange

namespace Probe

/-- What an exchange does, one after the other. -/
inductive Stage where
  | connecting
  | sending
  | receiving
  | decoding
  | parsing
  deriving DecidableEq

namespace Stage

/-- How many stages come before. -/
def index : Stage → Nat
  | connecting => 0
  | sending => 1
  | receiving => 2
  | decoding => 3
  | parsing => 4

/-- What is being done at a stage. -/
def context (address : String) (event : Event) : Stage → String
  | connecting => "connecting to " ++ address
  | sending => "sending " ++ event.name
  | receiving => "reading response"
  | decoding => "response is not valid UTF-8"
  | parsing => "parsing response JSON"

/-- What an exchange has printed when it comes to a stage. -/
def printedBefore (address : String) (envelope : Envelope) : Stage → List String
  | connecting => []
  | sending => ["Connected to chunk server at " ++ address]
  | _ => ["Connected to chunk server at " ++ address, envelope.sentSummary]

variable (config : Config) (encounter : Encounter) (body : Body)

/-- A stage that cannot succeed. -/
def Fails : Stage → Prop
  | connecting =>
    (¬∃ address, Address.parse config.address = .ok address) ∨
      encounter.server.connectError ≠ none
  | sending => encounter.server.sendError ≠ none
  | receiving => encounter.server.receiveError ≠ none
  | decoding => ∃ answer,
    encounter.server.answer (request config encounter.clock body).bytes = some answer ∧
      ¬Utf8.IsText (answer.take bufferSize)
  | parsing => ∃ answer,
    encounter.server.answer (request config encounter.clock body).bytes = some answer ∧
      Utf8.IsText (answer.take bufferSize) ∧ ¬Response.Readable (answer.take bufferSize)

/-- The first of the stages that cannot succeed. -/
structure FailsFirst (stage : Stage) : Prop where
  fails : stage.Fails config encounter body
  passes : ∀ earlier : Stage, earlier.index < stage.index → ¬earlier.Fails config encounter body

variable {config encounter body} {stage : Stage}

theorem exists_failsFirst (h : stage.Fails config encounter body) :
    ∃ first : Stage, first.FailsFirst config encounter body := by
  obtain ⟨first, hfails, hleast⟩ :=
    (measure index).wf.has_min {stage | stage.Fails config encounter body} ⟨stage, h⟩
  exact ⟨first, hfails, fun earlier hlt hearlier => hleast earlier hearlier hlt⟩

theorem fails_connecting :
    connecting.Fails config encounter body ↔
      ∃ fault, encounter.server.connectFault? config.address = some fault := by
  rw [Fails, Server.connectFault?]
  cases Address.parse config.address with
  | error fault => simp
  | ok address => simp [Option.ne_none_iff_exists']

end Stage

/-- An answer holds a document that is a response, or it is a text that holds none, or no text. -/
theorem ofBytes_cases (bytes : List UInt8) :
    (¬Utf8.IsText bytes ∧ ∃ fault, Response.ofBytes bytes = .error (.notText fault)) ∨
    (Utf8.IsText bytes ∧ ¬Response.Readable bytes ∧
      ∃ error, Response.ofBytes bytes = .error (.notJson error)) ∨
    (Utf8.IsText bytes ∧ Response.Readable bytes ∧
      ∃ response, Response.ofBytes bytes = .ok response) := by
  cases h : Response.ofBytes bytes with
  | ok response =>
      obtain ⟨t, ht, hdepth, hrange, -⟩ := Response.ofBytes_eq_ok_iff.mp h
      obtain ⟨text, htext, -⟩ := id ht
      exact .inr (.inr ⟨⟨text, htext⟩, ⟨t, ht, hdepth, hrange⟩, response, rfl⟩)
  | error fault =>
      have hnone : ¬Response.Readable bytes := by
        rintro ⟨t, ht, hdepth, hrange⟩
        have hok := Response.ofBytes_eq_ok_iff.mpr
          ⟨t, ht, hdepth, hrange, (Json.means_iff (v := (Response.mk _).value) hrange).mpr rfl⟩
        rw [h] at hok
        cases hok
      have hcontext := Response.chain_of_ofBytes h
      cases fault with
      | notText fault =>
          refine .inl ⟨?_, fault, rfl⟩
          simpa [Response.Fault.chain] using hcontext
      | notJson error =>
          refine .inr (.inl ⟨?_, hnone, error, rfl⟩)
          simpa [Response.Fault.chain] using hcontext

variable {config : Config} {encounter : Encounter} {body : Body} {stage : Stage}

namespace Stage

theorem connectFault?_eq_none (h : ¬connecting.Fails config encounter body) :
    encounter.server.connectFault? config.address = none := by
  cases hfault : encounter.server.connectFault? config.address with
  | none => rfl
  | some fault => exact absurd (fails_connecting.mpr ⟨fault, hfault⟩) h

theorem sendError_eq_none (h : ¬sending.Fails config encounter body) :
    encounter.server.sendError = none := not_not.mp h

theorem receiveError_eq_none (h : ¬receiving.Fails config encounter body) :
    encounter.server.receiveError = none := not_not.mp h

end Stage

/-- An exchange that gets past receiving ends as the answer makes it. -/
theorem outcome_of_received (hconnect : ¬Stage.connecting.Fails config encounter body)
    (hsend : ¬Stage.sending.Fails config encounter body)
    (hreceive : ¬Stage.receiving.Fails config encounter body) :
    (exchange config encounter body).outcome =
      match encounter.server.answer (request config encounter.clock body).bytes with
      | none => .pending
      | some answer =>
        match Response.ofBytes (answer.take bufferSize) with
        | .error fault => .failed (.response fault)
        | .ok response => .done (concluded config encounter.clock response) := by
  have houtcome := outcome_exchange config encounter body
  rw [Stage.connectFault?_eq_none hconnect, Stage.sendError_eq_none hsend,
    Stage.receiveError_eq_none hreceive] at houtcome
  exact houtcome

/-- The first stage that cannot succeed gives the failure its context. What went wrong there is told
without control characters. -/
theorem outcome_of_failsFirst (h : stage.FailsFirst config encounter body) :
    ∃ failure, (exchange config encounter body).outcome = .failed failure ∧
      failure.context = stage.context config.address body.event ∧
      Json.Printable failure.cause.toList := by
  cases stage with
  | connecting =>
      obtain ⟨fault, hfault⟩ := Stage.fails_connecting.mp h.fails
      refine ⟨.connecting config.address fault, ?_, rfl, fault.printable_message⟩
      rw [outcome_exchange, hfault]
  | sending =>
      have hconnect := h.passes .connecting (by decide)
      obtain ⟨error, herror⟩ := Option.ne_none_iff_exists'.mp h.fails
      refine ⟨.sending body.event error, ?_, rfl, error.printable_message⟩
      rw [outcome_exchange, Stage.connectFault?_eq_none hconnect, herror]
  | receiving =>
      have hconnect := h.passes .connecting (by decide)
      have hsend := h.passes .sending (by decide)
      obtain ⟨error, herror⟩ := Option.ne_none_iff_exists'.mp h.fails
      refine ⟨.receiving error, ?_, rfl, error.printable_message⟩
      rw [outcome_exchange, Stage.connectFault?_eq_none hconnect, Stage.sendError_eq_none hsend,
        herror]
  | decoding =>
      have houtcome := outcome_of_received (h.passes .connecting (by decide))
        (h.passes .sending (by decide)) (h.passes .receiving (by decide))
      obtain ⟨answer, hanswer, hbytes⟩ := h.fails
      rw [houtcome, hanswer]
      dsimp only
      rcases ofBytes_cases (answer.take bufferSize) with
        ⟨-, fault, hfault⟩ | ⟨htext, -⟩ | ⟨htext, -⟩
      · have hcause := Failure.printable_cause_response hfault
        rw [hfault]
        exact ⟨_, rfl, rfl, hcause⟩
      · exact absurd htext hbytes
      · exact absurd htext hbytes
  | parsing =>
      have houtcome := outcome_of_received (h.passes .connecting (by decide))
        (h.passes .sending (by decide)) (h.passes .receiving (by decide))
      obtain ⟨answer, hanswer, hbytes, hnone⟩ := h.fails
      rw [houtcome, hanswer]
      dsimp only
      rcases ofBytes_cases (answer.take bufferSize) with
        ⟨htext, -⟩ | ⟨-, -, error, herror⟩ | ⟨-, hsome, -⟩
      · exact absurd hbytes htext
      · have hcause := Failure.printable_cause_response herror
        rw [herror]
        exact ⟨_, rfl, rfl, hcause⟩
      · exact absurd hsome hnone

/-- An exchange that no stage has to fail gets a response, unless it waits for one that never
comes. -/
theorem outcome_of_forall_not_fails (h : ∀ stage : Stage, ¬stage.Fails config encounter body) :
    (∃ response, (exchange config encounter body).outcome =
        .done (concluded config encounter.clock response)) ∨
      (exchange config encounter body).outcome = .pending ∧
        encounter.server.answer (request config encounter.clock body).bytes = none := by
  rw [outcome_of_received (h .connecting) (h .sending) (h .receiving)]
  cases hanswer : encounter.server.answer (request config encounter.clock body).bytes with
  | none => exact .inr ⟨rfl, rfl⟩
  | some answer =>
      refine .inl ?_
      dsimp only
      rcases ofBytes_cases (answer.take bufferSize) with
        ⟨htext, -⟩ | ⟨htext, hnone, -⟩ | ⟨-, -, response, hresponse⟩
      · exact absurd ⟨answer, hanswer, htext⟩ (h .decoding)
      · exact absurd ⟨answer, hanswer, htext, hnone⟩ (h .parsing)
      · rw [hresponse]
        exact ⟨response, rfl⟩

/-- A failure comes from a stage that cannot succeed. -/
theorem exists_failsFirst_of_failed {failure : Failure}
    (h : (exchange config encounter body).outcome = .failed failure) :
    ∃ stage : Stage, stage.FailsFirst config encounter body := by
  by_contra hnone
  have hfails : ∀ stage : Stage, ¬stage.Fails config encounter body :=
    fun stage hstage => hnone (Stage.exists_failsFirst hstage)
  rcases outcome_of_forall_not_fails hfails with ⟨response, hdone⟩ | ⟨hpending, -⟩
  · rw [hdone] at h
    cases h
  · rw [hpending] at h
    cases h

theorem errors_exchange (config : Config) (encounter : Encounter) (body : Body) :
    (exchange config encounter body).transcript.errors = [] := by
  obtain ⟨log, hlog, htranscript⟩ := transcript_exchange config encounter body
  rw [htranscript]
  split
  · exact hlog
  · split <;> exact hlog

theorem transcript_of_unconnected (hconnect : Stage.connecting.Fails config encounter body) :
    (exchange config encounter body).transcript.printed = [] ∧
      (exchange config encounter body).transcript.requests = [] := by
  obtain ⟨fault, hfault⟩ := Stage.fails_connecting.mp hconnect
  obtain ⟨log, -, htranscript⟩ := transcript_exchange config encounter body
  rw [htranscript, hfault]
  exact ⟨rfl, rfl⟩

theorem transcript_of_unsent (hconnect : ¬Stage.connecting.Fails config encounter body)
    (hsend : Stage.sending.Fails config encounter body) :
    (exchange config encounter body).transcript.printed =
        ["Connected to chunk server at " ++ config.address] ∧
      (exchange config encounter body).transcript.requests = [[]] := by
  obtain ⟨error, herror⟩ := Option.ne_none_iff_exists'.mp hsend
  obtain ⟨log, -, htranscript⟩ := transcript_exchange config encounter body
  rw [htranscript, Stage.connectFault?_eq_none hconnect, herror]
  exact ⟨rfl, rfl⟩

theorem transcript_of_sent (hconnect : ¬Stage.connecting.Fails config encounter body)
    (hsend : ¬Stage.sending.Fails config encounter body) :
    (exchange config encounter body).transcript.printed =
        ["Connected to chunk server at " ++ config.address,
          (request config encounter.clock body).sentSummary] ∧
      (exchange config encounter body).transcript.requests =
        [(request config encounter.clock body).bytes] := by
  obtain ⟨log, -, htranscript⟩ := transcript_exchange config encounter body
  rw [htranscript, Stage.connectFault?_eq_none hconnect, Stage.sendError_eq_none hsend]
  exact ⟨rfl, rfl⟩

theorem printed_of_failsFirst (h : stage.FailsFirst config encounter body) :
    (exchange config encounter body).transcript.printed =
      stage.printedBefore config.address (request config encounter.clock body) := by
  cases stage with
  | connecting => exact (transcript_of_unconnected h.fails).1
  | sending => exact (transcript_of_unsent (h.passes .connecting (by decide)) h.fails).1
  | receiving | decoding | parsing =>
      have hsent := transcript_of_sent (h.passes .connecting (by decide))
        (h.passes .sending (by decide))
      exact hsent.1

/-- A request gets to the server whole, or nothing of it does. -/
theorem bytes_mem_requests :
    (request config encounter.clock body).bytes ∈
        (exchange config encounter body).transcript.requests ↔
      ¬Stage.connecting.Fails config encounter body ∧
        ¬Stage.sending.Fails config encounter body := by
  by_cases hconnect : Stage.connecting.Fails config encounter body
  · rw [(transcript_of_unconnected hconnect).2]
    simp [hconnect]
  by_cases hsend : Stage.sending.Fails config encounter body
  · rw [(transcript_of_unsent hconnect hsend).2]
    simp [hsend, Envelope.bytes_ne_nil]
  · rw [(transcript_of_sent hconnect hsend).2]
    simp [hconnect, hsend]

/-- What is said of a stage is words, but for the address. -/
theorem Stage.mem_address_of_mem_context {address : String} {event : Event} {c : Char}
    (hc : c.toNat < 0x20) (hmem : c ∈ (stage.context address event).toList) :
    c ∈ address.toList := by
  have hwords {words : String} (h : Json.Printable words.toList) : c ∉ words.toList :=
    fun hmem => absurd (h c hmem) (by omega)
  cases stage with
  | connecting =>
      rw [context, String.toList_append] at hmem
      exact (List.mem_append.mp hmem).resolve_left (hwords (Json.printable_words rfl rfl))
  | sending =>
      refine absurd hmem (hwords ?_)
      apply Json.printable_toList_append (Json.printable_words rfl rfl)
      cases event <;> exact Json.printable_words rfl rfl
  | receiving | decoding | parsing =>
      exact absurd hmem (hwords (Json.printable_words rfl rfl))

/-- Whatever an answer holds, a failure is told on one line if the address is one. -/
theorem not_mem_line {failure : Failure}
    (h : (exchange config encounter body).outcome = .failed failure)
    (haddress : '\n' ∉ config.address.toList) : '\n' ∉ failure.line.toList := by
  obtain ⟨stage, hfirst⟩ := exists_failsFirst_of_failed h
  obtain ⟨failure', houtcome, hcontext, hcause⟩ := outcome_of_failsFirst hfirst
  rw [h] at houtcome
  cases houtcome
  rw [failure.line_eq, failure.message_eq, hcontext]
  simp only [String.toList_append, List.mem_append, not_or]
  have hbreak : '\n'.toNat < 0x20 := by decide
  refine ⟨by decide, ⟨?_, by decide⟩, ?_⟩
  · exact fun hmem => haddress (Stage.mem_address_of_mem_context hbreak hmem)
  · exact fun hmem => absurd (hcause _ hmem) (Nat.not_le.mpr hbreak)

variable (event : Event)

/-- The failure of a scenario is printed and logged, each once. -/
theorem runScenario_of_failed {failure : Failure}
    (h : (exchange config encounter event.sample).outcome = .failed failure) :
    (runScenario config encounter event).outcome = .done () ∧
      (runScenario config encounter event).transcript.printed =
        (exchange config encounter event.sample).transcript.printed ++ [failure.line] ∧
      (runScenario config encounter event).transcript.requests =
        (exchange config encounter event.sample).transcript.requests ∧
      (runScenario config encounter event).transcript.errors =
        [⟨.error, .scenario, event.name ++ " probe failed: " ++ failure.message⟩] := by
  obtain ⟨hprinted, hrequests, herrors⟩ := transcript_scenario config encounter event
  rw [outcome_runScenario, transcript_runScenario, outcome_scenario, h]
  dsimp only
  rw [Transcript.printed_append, Transcript.requests_append, Transcript.errors_append, hprinted,
    hrequests, herrors, errors_exchange, List.append_nil]
  exact ⟨rfl, rfl, rfl, rfl⟩

/-- The report of a scenario is printed after an empty line, and no error is logged. -/
theorem runScenario_of_done {result : Exchange}
    (h : (exchange config encounter event.sample).outcome = .done result) :
    (runScenario config encounter event).outcome = .done () ∧
      (runScenario config encounter event).transcript.printed =
        (exchange config encounter event.sample).transcript.printed ++
          ["\n" ++ event.report result] ∧
      (runScenario config encounter event).transcript.requests =
        (exchange config encounter event.sample).transcript.requests ∧
      (runScenario config encounter event).transcript.errors = [] := by
  obtain ⟨hprinted, hrequests, herrors⟩ := transcript_scenario config encounter event
  rw [outcome_runScenario, transcript_runScenario, outcome_scenario, h]
  dsimp only
  rw [Transcript.printed_append, Transcript.requests_append, Transcript.errors_append, hprinted,
    hrequests, herrors, errors_exchange, List.append_nil]
  exact ⟨rfl, rfl, rfl, rfl⟩

/-- An exchange ends at the first stage that cannot succeed, which decides what is said of it and
what has been printed and sent by then. A scenario adds one line to that, and an entry to the log if
the line tells of a failure. -/
theorem exchange_ends_at_first_failing_stage (config : Config) (h : '\n' ∉ config.address.toList)
    (encounter : Encounter) :
    (∀ body,
      let envelope := request config encounter.clock body
      let run := exchange config encounter body
      (∀ failure, run.outcome = .failed failure →
        ∃ stage : Stage, stage.FailsFirst config encounter body) ∧
      (∀ stage : Stage, stage.FailsFirst config encounter body →
        ∃ failure cause, run.outcome = .failed failure ∧
          failure.message = stage.context config.address body.event ++ ": " ++ cause ∧
          run.transcript.printed = stage.printedBefore config.address envelope) ∧
      ((∀ stage : Stage, ¬stage.Fails config encounter body) →
        ((∃ response, run.outcome = .done (concluded config encounter.clock response)) ∨
          run.outcome = .pending ∧ encounter.server.answer envelope.bytes = none) ∧
        run.transcript.printed =
          ["Connected to chunk server at " ++ config.address, envelope.sentSummary]) ∧
      (envelope.bytes ∈ run.transcript.requests ↔
        ¬Stage.connecting.Fails config encounter body ∧
          ¬Stage.sending.Fails config encounter body) ∧
      run.transcript.errors = []) ∧
    ∀ event : Event,
      let inner := exchange config encounter event.sample
      let run := runScenario config encounter event
      (∀ failure, inner.outcome = .failed failure →
        run.outcome = .done () ∧
        run.transcript.printed = inner.transcript.printed ++ [failure.line] ∧
        run.transcript.requests = inner.transcript.requests ∧
        run.transcript.errors =
          [⟨.error, .scenario, event.name ++ " probe failed: " ++ failure.message⟩] ∧
        failure.line = "Error: " ++ failure.message ∧ '\n' ∉ failure.line.toList) ∧
      ∀ result, inner.outcome = .done result →
        run.outcome = .done () ∧
        run.transcript.printed =
          inner.transcript.printed ++ ["\n" ++ event.report result] ∧
        run.transcript.requests = inner.transcript.requests ∧
        run.transcript.errors = [] := by
  refine ⟨fun body => ⟨?_, ?_, ?_, ?_, ?_⟩, fun event => ⟨?_, ?_⟩⟩
  · intro failure hfailure
    exact exists_failsFirst_of_failed hfailure
  · intro stage hfirst
    obtain ⟨failure, houtcome, hcontext, -⟩ := outcome_of_failsFirst hfirst
    refine ⟨failure, failure.cause, houtcome, ?_, printed_of_failsFirst hfirst⟩
    rw [failure.message_eq, hcontext]
  · intro hfails
    have hsent := transcript_of_sent (hfails .connecting) (hfails .sending)
    exact ⟨outcome_of_forall_not_fails hfails, hsent.1⟩
  · exact bytes_mem_requests
  · exact errors_exchange config encounter body
  · intro failure hfailure
    obtain ⟨houtcome, hprinted, hrequests, herrors⟩ := runScenario_of_failed event hfailure
    exact ⟨houtcome, hprinted, hrequests, herrors, failure.line_eq, not_mem_line hfailure h⟩
  · intro result hdone
    exact runScenario_of_done event hdone

/-- A server that neither takes a request nor sends an answer is blamed for the first. -/
theorem exchange_ends_at_first_failing_stage_default :
    let epoch : Instant := ⟨0, 0⟩
    let server : Server :=
      { Server.silent with sendError := some ⟨32⟩, receiveError := some ⟨104⟩ }
    let encounter : Encounter := ⟨⟨epoch, epoch, epoch⟩, server⟩
    '\n' ∉ (Config.address {}).toList ∧
      Stage.sending.FailsFirst {} encounter Event.move.sample ∧
      ∃ failure cause, (exchange {} encounter Event.move.sample).outcome = .failed failure ∧
        failure.message = "sending moveCharacter" ++ ": " ++ cause := by
  intro epoch server encounter
  have haddress : '\n' ∉ (Config.address {}).toList := by decide
  have hfirst : Stage.sending.FailsFirst {} encounter Event.move.sample := by
    refine ⟨Option.some_ne_none _, ?_⟩
    intro earlier hearlier
    cases earlier with
    | connecting =>
        rw [Stage.fails_connecting]
        rintro ⟨fault, hfault⟩
        cases hfault
    | sending | receiving | decoding | parsing => exact absurd hearlier (by decide)
  obtain ⟨-, hfailed, -⟩ :=
    (exchange_ends_at_first_failing_stage {} haddress encounter).1 Event.move.sample
  obtain ⟨failure, cause, houtcome, hmessage, -⟩ := hfailed .sending hfirst
  exact ⟨haddress, hfirst, failure, cause, houtcome, hmessage⟩

end Probe
end LatencyProbe
