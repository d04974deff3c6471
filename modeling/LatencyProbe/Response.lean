import LatencyProbe.Json.Parser
import LatencyProbe.Text.Blank

/-!
# Responses

A response is whatever JSON document a server answers with; nothing about its shape is assumed.
Blanks at the end of the answer are cut off first, of a wider set than a document allows elsewhere.
-/

namespace LatencyProbe

/-- The value that a server answered with, collated. -/
structure Response where
  value : Json

namespace Response

/-- Why an answer is no response. -/
inductive Fault where
  | notText (fault : Utf8.Fault)
  | notJson (error : Json.Error)
  deriving DecidableEq

/-- What was being done, and what went wrong. -/
def Fault.chain : Fault → List String
  | .notText fault => ["response is not valid UTF-8", fault.message]
  | .notJson error => ["parsing response JSON", error.message]

/-- The response that the bytes of an answer hold. -/
def ofBytes (bytes : List UInt8) : Except Fault Response :=
  match Utf8.decode bytes with
  | .error fault => .error (.notText fault)
  | .ok text =>
    match Json.parse (Text.trimEnd text) with
    | .error error => .error (.notJson error)
    | .ok value => .ok ⟨value⟩

/-- The text that an operator is shown. -/
def pretty (response : Response) : String := String.ofList response.value.pretty

end Response
end LatencyProbe
