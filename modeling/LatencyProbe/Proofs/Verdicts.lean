import LatencyProbe.Proofs.Acceptance
import LatencyProbe.Proofs.EchoServer
import LatencyProbe.Proofs.Json.Collation
import LatencyProbe.Proofs.Transcript

/-!
# Verdicts on what was on the wire

The id and the send time of a request exist three times: in the bytes that were sent, in what the
exchange returns, and in the verdicts of its report. Here they are one. Nothing is assumed of the
server, whose answer may depend on the request in any way, and an answer is read as it says: a field
is the first acceptable value under its key, and a time is acceptable for what it is exactly.
-/

namespace LatencyProbe

namespace Response

variable {α : Type}

/-- What a part of a response says under a key. -/
def member? (response : Response) (part key : String) : Option Json :=
  (response.value.get? part).bind (Json.get? key)

/-- The first acceptable value under a key, of the header or else of the body. -/
inductive First (response : Response) (key : String) (accepts : Json → α → Prop) (a : α) : Prop where
  | header {v : Json} (h : response.member? "header" key = some v) (ha : accepts v a)
  | body {v : Json} (hnone : ∀ v b, response.member? "header" key = some v → ¬accepts v b)
      (h : response.member? "body" key = some v) (ha : accepts v a)

theorem lookup_eq_some_iff {response : Response} {key : String} {accept : Json → Option α}
    {accepts : Json → α → Prop} (h : ∀ v a, accept v = some a ↔ accepts v a) {a : α} :
    response.lookup key accept = some a ↔ response.First key accepts a := by
  rw [lookup_eq, ← member?, ← member?]
  constructor
  · intro hor
    rcases Option.or_eq_some_iff.mp hor with hheader | ⟨hnone, hbody⟩
    · obtain ⟨v, hv, ha⟩ := Option.bind_eq_some_iff.mp hheader
      exact .header hv ((h v a).mp ha)
    · obtain ⟨v, hv, ha⟩ := Option.bind_eq_some_iff.mp hbody
      refine .body ?_ hv ((h v a).mp ha)
      intro v b hv hb
      rw [hv, Option.bind_some, (h v b).mpr hb] at hnone
      cases hnone
  · rintro (⟨hv, ha⟩ | ⟨hnone, hv, ha⟩)
    · rw [hv, Option.bind_some, (h _ a).mpr ha, Option.some_or]
    · have hheader : (response.member? "header" key).bind accept = none := by
        refine Option.bind_eq_none_iff.mpr fun v hv => ?_
        cases hb : accept v with
        | none => rfl
        | some b => exact absurd ((h v b).mp hb) (hnone v b hv)
      rw [hheader, Option.none_or, hv, Option.bind_some, (h _ a).mpr ha]

end Response

namespace Exchange

variable (e : Exchange)

end Exchange

namespace Probe

end Probe
end LatencyProbe
