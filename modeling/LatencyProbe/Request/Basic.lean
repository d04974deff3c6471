import LatencyProbe.Double.Basic

/-!
# Requests

A request is an envelope: a header that identifies it, and one of two bodies. A move tells where a
character is, a join also describes the character. An envelope made by `Envelope.make` names its
body's kind in the header; one that was read may name either.
-/

namespace LatencyProbe

/-- What a request asks for. -/
inductive Event where
  | move
  | join
  deriving DecidableEq, Repr

/-- The name of an event on the wire. -/
def Event.name : Event → String
  | .move => "moveCharacter"
  | .join => "joinCharacter"

/-- What identifies a request. -/
structure Header where
  requestId : String
  clientSend : Int64
  event : Event
  deriving DecidableEq, Repr

/-- A place and a direction. -/
structure Position where
  x : Double
  y : Double
  z : Double
  rotation : Double
  deriving DecidableEq, Repr

/-- A character as its player sees it. -/
structure Character where
  id : UInt32
  name : String
  className : String
  level : UInt32
  currentHealth : UInt32
  maxHealth : UInt32
  deriving DecidableEq, Repr

/-- The body of a request that moves a character. -/
structure Move where
  clientId : UInt32
  characterId : UInt32
  position : Position
  deriving DecidableEq, Repr

/-- The body of a request that brings a character into the world. -/
structure Join where
  clientId : UInt32
  characterId : UInt32
  character : Character
  position : Position
  deriving DecidableEq, Repr

/-- The body of a request. -/
inductive Body where
  | join (body : Join)
  | move (body : Move)
  deriving DecidableEq, Repr

/-- The event that a body belongs to. -/
def Body.event : Body → Event
  | .join _ => .join
  | .move _ => .move

/-- A request. -/
structure Envelope where
  header : Header
  body : Body
  deriving DecidableEq, Repr

/-- The request with an id, a send time and a body. -/
def Envelope.make (requestId : String) (clientSend : Int64) (body : Body) : Envelope where
  header := ⟨requestId, clientSend, body.event⟩
  body := body

@[simp] theorem Envelope.event_make (requestId : String) (clientSend : Int64) (body : Body) :
    (Envelope.make requestId clientSend body).header.event = body.event := rfl

/-- The move that the probe sends: from the first client, one fixed position. -/
def Move.sample : Move where
  clientId := 1
  characterId := 1
  position :=
    { x := .ofBits 0x4059200000000000
      y := .ofBits 0x406909999999999a
      z := .ofBits 0
      rotation := .ofBits 0x4046800000000000 }

/-- The join that the probe sends: a warrior of level five at the origin. -/
def Join.sample : Join where
  clientId := 1
  characterId := 1
  character :=
    { id := 1
      name := "TestPlayer"
      className := "Warrior"
      level := 5
      currentHealth := 100
      maxHealth := 100 }
  position := ⟨.ofBits 0, .ofBits 0, .ofBits 0, .ofBits 0⟩

end LatencyProbe
