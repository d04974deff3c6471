import LatencyProbe.Failure
import LatencyProbe.Proofs.Json.Faults

/-!
# Failures on one line

A failure has two causes in its chain: what was being done, and what went wrong. Errors of the
system and faults of an answer are told in words of their own, so of all that comes from outside
only the address gets into the line that an operator is shown.
-/

namespace LatencyProbe

open Json (Printable printable_ofInt printable_toList_append printable_words)

namespace OsError

theorem printable_glossary : ∀ entry ∈ glossary, Printable entry.2.toList := by
  rw [glossary]
  repeat' refine List.forall_mem_cons.mpr ⟨printable_words rfl rfl, ?_⟩
  exact List.forall_mem_nil _

theorem printable_message (e : OsError) : Printable e.message.toList := by
  have hwords : Printable e.words.toList := by
    rw [words]
    cases hlookup : glossary.lookup e.code with
    | none => exact printable_toList_append (printable_words rfl rfl) (printable_ofInt _)
    | some words =>
        obtain ⟨before, after, hglossary, -⟩ := List.lookup_eq_some_iff.mp hlookup
        refine printable_glossary (e.code, words) ?_
        rw [hglossary]
        exact List.mem_append_right _ (List.mem_cons_self ..)
  have hopen : Printable " (os error ".toList := printable_words rfl rfl
  have hclose : Printable ")".toList := printable_words rfl rfl
  apply printable_toList_append _ hclose
  apply printable_toList_append _ (printable_ofInt _)
  exact printable_toList_append hwords hopen

end OsError

theorem Server.ConnectFault.printable_message (fault : ConnectFault) :
    Printable fault.message.toList := by
  cases fault with
  | address fault => cases fault <;> exact printable_words rfl rfl
  | system error => exact error.printable_message

theorem Utf8.Fault.printable_message (fault : Utf8.Fault) : Printable fault.message.toList := by
  cases fault with
  | broken length index =>
      apply printable_toList_append _ (printable_ofInt _)
      apply printable_toList_append _ (printable_words rfl rfl)
      exact printable_toList_append (printable_words rfl rfl) (printable_ofInt _)
  | unfinished index => exact printable_toList_append (printable_words rfl rfl) (printable_ofInt _)

namespace Failure

/-- What was being done. -/
def context : Failure → String
  | connecting address _ => "connecting to " ++ address
  | sending event _ => "sending " ++ event.name
  | receiving _ => "reading response"
  | response (.notText _) => "response is not valid UTF-8"
  | response (.notJson _) => "parsing response JSON"

/-- What went wrong. -/
def cause : Failure → String
  | connecting _ fault => fault.message
  | sending _ error => error.message
  | receiving error => error.message
  | response (.notText fault) => fault.message
  | response (.notJson error) => error.message

theorem chain_eq (failure : Failure) : failure.chain = [failure.context, failure.cause] := by
  cases failure with
  | response fault => cases fault <;> rfl
  | _ => rfl

theorem message_eq (failure : Failure) :
    failure.message = failure.context ++ ": " ++ failure.cause := by
  rw [message, chain_eq]
  rfl

theorem line_eq (failure : Failure) : failure.line = "Error: " ++ failure.message := rfl

/-- What goes wrong with an answer is told without a word of the answer. -/
theorem printable_cause_response {bytes : List UInt8} {fault : Response.Fault}
    (h : Response.ofBytes bytes = .error fault) : Printable (response fault).cause.toList := by
  rw [Response.ofBytes] at h
  split at h
  · next fault' _ =>
    cases h
    exact fault'.printable_message
  · split at h
    · next error hparse =>
      cases h
      exact Json.printable_message_of_parse hparse
    · cases h

end Failure
end LatencyProbe
