import LatencyProbe.Proofs.Timestamps
import LatencyProbe.Proofs.Verdicts

/-!
# Echo fields, exactly

Each echo field is the first acceptable value under its key, of the header or else of the body. The
eight places where such a value can stand decide all the fields, and nothing else in a response has
a say.
-/

namespace LatencyProbe

namespace Response

/-- The keys of the echo fields. -/
def echoKeys : List String := ["requestIdEcho", "serverRecvMs", "serverSendMs", "clientSendMsEcho"]

variable {response other : Response}

theorem lookup_congr {α : Type} {key : String} (accept : Json → Option α)
    (h : ∀ part ∈ ["header", "body"], response.member? part key = other.member? part key) :
    response.lookup key accept = other.lookup key accept := by
  have hheader := h "header" (by simp)
  have hbody := h "body" (by simp)
  rw [member?, member?] at hheader hbody
  rw [lookup_eq, lookup_eq, hheader, hbody]

theorem echo_congr (h : ∀ part ∈ ["header", "body"], ∀ key ∈ echoKeys,
      response.member? part key = other.member? part key) : response.echo = other.echo := by
  have hlookup {α : Type} (accept : Json → Option α) {key : String} (hkey : key ∈ echoKeys) :
      response.lookup key accept = other.lookup key accept :=
    lookup_congr accept fun part hpart => h part hpart key hkey
  rw [echo, echo, hlookup _ (by simp [echoKeys]), hlookup _ (by simp [echoKeys]),
    hlookup _ (by simp [echoKeys]), hlookup _ (by simp [echoKeys])]

/-- Each field is the first acceptable value under its key, of the header or else of the body, where
a string is acceptable for an id and a number for the time that it is exactly. The way by doubles
takes no other number for a time. What a response says elsewhere changes none of the fields. -/
theorem echo_first_acceptable (response : Response) :
    (∀ id, response.echo.requestId = some id ↔
      response.First "requestIdEcho" Json.IsString id) ∧
    (∀ field t, response.echo.time field = some t ↔
      response.First field.key Json.IsTime t) ∧
    (∀ n t, Json.Number.castMillis? n = some t ↔ (Json.number n).IsTime t) ∧
    ∀ other : Response,
      (∀ part ∈ ["header", "body"], ∀ key ∈ echoKeys,
        response.member? part key = other.member? part key) → response.echo = other.echo := by
  refine ⟨?_, ?_, ?_, fun other h => echo_congr h⟩
  · intro id
    exact lookup_eq_some_iff fun _ _ => Json.toString?_eq_some_iff
  · intro field t
    rw [time_echo]
    exact lookup_eq_some_iff fun _ _ => Json.toMillis?_eq_some_iff
  · intro n t
    rw [Json.Number.castMillis?_eq_some_iff, Json.isTime_number_iff]

end Response
end LatencyProbe
