import LatencyProbe.Probe

/-!
# How an exchange ends

An exchange goes through its stages in order and ends at the first that fails; what it prints and
logs on the way has no part in that. `outcome_exchange` says so once, and no later proof opens an
exchange again.
-/

namespace LatencyProbe.Probe

variable {α β : Type}

theorem outcome_bind (x : Run α) (f : α → Run β) :
    (x >>= f).outcome =
      match x.outcome with
      | .done a => (f a).outcome
      | .failed failure => .failed failure
      | .pending => .pending := by
  obtain ⟨t, _ | _ | _⟩ := x <;> rfl

theorem outcome_bind_of_done {x : Run α} {a : α} (h : x.outcome = .done a) (f : α → Run β) :
    (x >>= f).outcome = (f a).outcome := by
  rw [outcome_bind, h]

theorem outcome_refuse {ε : Type} (failure : ε → Failure) (fault : Option ε) :
    (Run.refuse failure fault).outcome =
      match fault with
      | none => .done ()
      | some fault => .failed (failure fault) := by
  cases fault <;> rfl

variable (config : Config) (server : Server) (envelope : Envelope)

theorem outcome_connect :
    (connect config server).outcome =
      match server.connectFault? config.address with
      | none => .done ()
      | some fault => .failed (.connecting config.address fault) := by
  rw [connect]
  rw [outcome_bind, outcome_refuse]
  cases server.connectFault? config.address <;> rfl

theorem outcome_send :
    (send server envelope).outcome =
      match server.sendError with
      | none => .done ()
      | some error => .failed (.sending envelope.header.event error) := by
  rw [send]
  rw [outcome_bind_of_done rfl, outcome_bind_of_done rfl, outcome_bind, outcome_refuse]
  cases server.sendError <;> rfl

theorem outcome_receive (sent : List UInt8) :
    (receive config server sent).outcome =
      match server.receiveError with
      | some error => .failed (.receiving error)
      | none =>
        match server.answer sent with
        | none => .pending
        | some answer => .done (answer.take bufferSize) := by
  rw [receive]
  rw [outcome_bind, outcome_refuse]
  cases server.receiveError with
  | some error => rfl
  | none => cases server.answer sent <;> rfl

/-- What an exchange returns when it got a response. -/
def concluded (config : Config) (clock : Readings) (response : Response) : Exchange where
  requestId := RequestId.ofInstant clock.identify config.session
  clientSend := clock.send.millis
  clientRecv := clock.receive.millis
  response := response

/-- The first stage that fails decides. -/
theorem outcome_exchange (encounter : Encounter) (body : Body) :
    (exchange config encounter body).outcome =
      match encounter.server.connectFault? config.address with
      | some fault => .failed (.connecting config.address fault)
      | none =>
        match encounter.server.sendError with
        | some error => .failed (.sending body.event error)
        | none =>
          match encounter.server.receiveError with
          | some error => .failed (.receiving error)
          | none =>
            match encounter.server.answer (request config encounter.clock body).bytes with
            | none => .pending
            | some answer =>
              match Response.ofBytes (answer.take bufferSize) with
              | .error fault => .failed (.response fault)
              | .ok response => .done (concluded config encounter.clock response) := by
  rw [exchange]
  rw [outcome_bind, outcome_connect]
  cases encounter.server.connectFault? config.address with
  | some fault => rfl
  | none =>
      dsimp only
      rw [outcome_bind, outcome_send]
      cases encounter.server.sendError with
      | some error => rfl
      | none =>
          dsimp only
          rw [outcome_bind, outcome_receive]
          cases encounter.server.receiveError with
          | some error => rfl
          | none =>
              dsimp only
              cases encounter.server.answer (request config encounter.clock body).bytes with
              | none => rfl
              | some answer =>
                  dsimp only
                  cases Response.ofBytes (answer.take bufferSize) <;> rfl

/-- An answer that fits the buffer and reads as a response ends the exchange with it. -/
theorem outcome_exchange_of_response {encounter : Encounter} {body : Body} {answer : List UInt8}
    {response : Response} (hconnect : encounter.server.connectFault? config.address = none)
    (hsend : encounter.server.sendError = none) (hreceive : encounter.server.receiveError = none)
    (hanswer : encounter.server.answer (request config encounter.clock body).bytes = some answer)
    (hlength : answer.length ≤ bufferSize) (hresponse : Response.ofBytes answer = .ok response) :
    (exchange config encounter body).outcome =
      .done (concluded config encounter.clock response) := by
  rw [outcome_exchange, hconnect, hsend, hreceive, hanswer]
  dsimp only
  rw [List.take_of_length_le hlength, hresponse]

theorem outcome_scenario (encounter : Encounter) (event : Event) :
    (scenario config encounter event).outcome =
      (exchange config encounter event.sample).outcome := by
  rw [scenario]
  rw [outcome_bind_of_done rfl]

end LatencyProbe.Probe
