import LatencyProbe.Json.Record
import LatencyProbe.Request.Basic

/-!
# The wire format of requests

A request is written as a JSON document on a line of its own. Members stand in the order of the
fields, and a coordinate that is not finite is written as `null`. Each record is read by a table of
its fields, which names the keys once more in the same order.

A body is not marked as move or join. It is read as a join if it can be, else as a move.
-/

namespace LatencyProbe

open Json (Reader)

namespace Event

/-- An event as JSON. -/
def toJson (event : Event) : Json := .string event.name

/-- Reads an event by its name. -/
def reader : Reader Event := .variant [(move.name, move), (join.name, join)]

end Event

namespace Header

/-- A header as JSON. -/
def toJson (header : Header) : Json := .object
  [("requestId", .string header.requestId),
   ("clientSendMs", .int64 header.clientSend),
   ("eventType", header.event.toJson)]

/-- The fields of a header. -/
def fields : Json.Fields [String, Int64, Event] :=
  (⟨"requestId", .text⟩, ⟨"clientSendMs", .int64⟩, ⟨"eventType", Event.reader⟩, ())

/-- Reads a header. -/
def reader : Reader Header :=
  .record "RequestHeader" fields fun (requestId, clientSend, event, ()) =>
    ⟨requestId, clientSend, event⟩

end Header

namespace Position

/-- A position as JSON. -/
def toJson (position : Position) : Json := .object
  [("positionX", .double position.x),
   ("positionY", .double position.y),
   ("positionZ", .double position.z),
   ("rotationZ", .double position.rotation)]

/-- The fields of a position. -/
def fields : Json.Fields [Double, Double, Double, Double] :=
  (⟨"positionX", .double⟩, ⟨"positionY", .double⟩, ⟨"positionZ", .double⟩,
    ⟨"rotationZ", .double⟩, ())

/-- Reads a position. -/
def reader : Reader Position :=
  .record "Position" fields fun (x, y, z, rotation, ()) => ⟨x, y, z, rotation⟩

end Position

namespace Character

/-- A character as JSON. -/
def toJson (character : Character) : Json := .object
  [("characterId", .word character.id),
   ("characterName", .string character.name),
   ("characterClass", .string character.className),
   ("characterLevel", .word character.level),
   ("currentHealth", .word character.currentHealth),
   ("maxHealth", .word character.maxHealth)]

/-- The fields of a character. -/
def fields : Json.Fields [UInt32, String, String, UInt32, UInt32, UInt32] :=
  (⟨"characterId", .word⟩, ⟨"characterName", .text⟩, ⟨"characterClass", .text⟩,
    ⟨"characterLevel", .word⟩, ⟨"currentHealth", .word⟩, ⟨"maxHealth", .word⟩, ())

/-- Reads a character. -/
def reader : Reader Character :=
  .record "Character" fields fun (id, name, className, level, currentHealth, maxHealth, ()) =>
    ⟨id, name, className, level, currentHealth, maxHealth⟩

end Character

namespace Move

/-- A move as JSON. -/
def toJson (body : Move) : Json := .object
  [("clientId", .word body.clientId),
   ("characterId", .word body.characterId),
   ("position", body.position.toJson)]

/-- The fields of a move. -/
def fields : Json.Fields [UInt32, UInt32, Position] :=
  (⟨"clientId", .word⟩, ⟨"characterId", .word⟩, ⟨"position", Position.reader⟩, ())

/-- Reads a move. -/
def reader : Reader Move :=
  .record "MoveCharacterBody" fields fun (clientId, characterId, position, ()) =>
    ⟨clientId, characterId, position⟩

end Move

namespace Join

/-- A join as JSON. -/
def toJson (body : Join) : Json := .object
  [("clientId", .word body.clientId),
   ("characterId", .word body.characterId),
   ("character", body.character.toJson),
   ("position", body.position.toJson)]

/-- The fields of a join. -/
def fields : Json.Fields [UInt32, UInt32, Character, Position] :=
  (⟨"clientId", .word⟩, ⟨"characterId", .word⟩, ⟨"character", Character.reader⟩,
    ⟨"position", Position.reader⟩, ())

/-- Reads a join. -/
def reader : Reader Join :=
  .record "JoinCharacterBody" fields fun (clientId, characterId, character, position, ()) =>
    ⟨clientId, characterId, character, position⟩

end Join

namespace Body

/-- A body as JSON. -/
def toJson : Body → Json
  | .join body => body.toJson
  | .move body => body.toJson

/-- Reads a body, as a join before as a move. -/
def reader : Reader Body :=
  .firstOf "RequestBody" (Join.reader.map .join) (Move.reader.map .move)

end Body

namespace Envelope

/-- An envelope as JSON. -/
def toJson (envelope : Envelope) : Json := .object
  [("header", envelope.header.toJson), ("body", envelope.body.toJson)]

/-- The fields of an envelope. -/
def fields : Json.Fields [Header, Body] :=
  (⟨"header", Header.reader⟩, ⟨"body", Body.reader⟩, ())

/-- Reads an envelope. -/
def reader : Reader Envelope :=
  .record "RequestEnvelope" fields fun (header, body, ()) => ⟨header, body⟩

/-- The document that an envelope is written as. -/
def text (envelope : Envelope) : List Char := envelope.toJson.compact

/-- The line that an envelope is sent as. -/
def line (envelope : Envelope) : List Char := envelope.text ++ ['\n']

/-- The bytes that an envelope is sent as. -/
def bytes (envelope : Envelope) : List UInt8 := Utf8.encode envelope.line

/-- What an operator is told once an envelope is sent. Only a move reports its send time. -/
def sentSummary (envelope : Envelope) : String :=
  let sent := "Sent " ++ envelope.header.event.name ++ " with requestId: " ++
    envelope.header.requestId
  match envelope.header.event with
  | .move => sent ++ "\nClient send time: " ++ Text.ofInt envelope.header.clientSend.toInt
  | .join => sent

end Envelope
end LatencyProbe
