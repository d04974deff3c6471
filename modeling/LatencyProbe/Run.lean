import LatencyProbe.Failure
import LatencyProbe.Log

/-!
# Runs and their transcripts

A run is known by what it leaves behind and how it ends. What it leaves behind is its transcript:
the texts printed, the log, and the bytes that reached a server on each connection. It ends with a
result or a failure, or not at all: then the transcript is what there was when nothing more came.

Runs in sequence add their transcripts, and nothing follows a run that does not end with a result.
-/

namespace LatencyProbe

/-- What a run leaves behind. -/
@[ext] structure Transcript where
  /-- The texts printed, each on lines of its own. -/
  printed : List String
  log : List Log.Entry
  /-- What the server received on each connection. -/
  requests : List (List UInt8)
  deriving DecidableEq

namespace Transcript

/-- Nothing left behind. -/
def empty : Transcript := ⟨[], [], []⟩

/-- Two transcripts after each other. -/
def append (s t : Transcript) : Transcript :=
  ⟨s.printed ++ t.printed, s.log ++ t.log, s.requests ++ t.requests⟩

instance : Append Transcript := ⟨append⟩

@[simp] theorem printed_append (s t : Transcript) :
    (s ++ t).printed = s.printed ++ t.printed := rfl

@[simp] theorem log_append (s t : Transcript) : (s ++ t).log = s.log ++ t.log := rfl

@[simp] theorem requests_append (s t : Transcript) :
    (s ++ t).requests = s.requests ++ t.requests := rfl

@[simp] theorem empty_append (t : Transcript) : empty ++ t = t := rfl

@[simp] theorem append_empty (t : Transcript) : t ++ empty = t := by
  ext1 <;> simp [empty]

theorem append_assoc (s t u : Transcript) : s ++ t ++ u = s ++ (t ++ u) := by
  ext1 <;> simp

/-- The output: every text printed, with a line break after it. -/
def output (t : Transcript) : String := String.join (t.printed.map (· ++ "\n"))

end Transcript

/-- How a run ends. A pending run does not. -/
inductive Outcome (α : Type) where
  | done (a : α)
  | failed (failure : Failure)
  | pending

/-- What a run leaves behind and how it ends. -/
structure Run (α : Type) where
  transcript : Transcript
  outcome : Outcome α

namespace Run

variable {α β : Type}

/-- A run that only has a result. -/
def done (a : α) : Run α := ⟨.empty, .done a⟩

/-- A run that only fails. -/
def fail (failure : Failure) : Run α := ⟨.empty, .failed failure⟩

/-- A run that waits for ever. -/
def wait : Run α := ⟨.empty, .pending⟩

/-- Prints a text. -/
def print (text : String) : Run Unit := ⟨⟨[text], [], []⟩, .done ()⟩

/-- Logs an entry. -/
def log (level : Log.Level) (source : Log.Source) (message : String) : Run Unit :=
  ⟨⟨[], [⟨level, source, message⟩], []⟩, .done ()⟩

/-- Gives bytes to the server of a connection. -/
def request (bytes : List UInt8) : Run Unit := ⟨⟨[], [], [bytes]⟩, .done ()⟩

/-- Goes on after a transcript. -/
def after (t : Transcript) (x : Run α) : Run α := ⟨t ++ x.transcript, x.outcome⟩

/-- Goes on with the result of a run, or with its failure. -/
def settle (x : Run α) (whenDone : α → Run β) (whenFailed : Failure → Run β) : Run β :=
  match x.outcome with
  | .done a => after x.transcript (whenDone a)
  | .failed failure => after x.transcript (whenFailed failure)
  | .pending => ⟨x.transcript, .pending⟩

@[simp] theorem settle_done (a : α) (f : α → Run β) (g : Failure → Run β) :
    (done a).settle f g = f a := by
  simp [done, settle, after]

@[simp] theorem settle_fail (failure : Failure) (f : α → Run β) (g : Failure → Run β) :
    (fail failure).settle f g = g failure := by
  simp [fail, settle, after]

@[simp] theorem settle_wait (f : α → Run β) (g : Failure → Run β) : wait.settle f g = wait := rfl

@[simp] theorem settle_after (t : Transcript) (x : Run α) (f : α → Run β) (g : Failure → Run β) :
    (after t x).settle f g = after t (x.settle f g) := by
  obtain ⟨s, _ | _ | _⟩ := x <;> simp [settle, after, Transcript.append_assoc]

instance : Monad Run where
  pure := done
  bind x f := x.settle f fail

theorem pure_eq (a : α) : (pure a : Run α) = done a := rfl

theorem bind_eq (x : Run α) (f : α → Run β) : x >>= f = x.settle f fail := rfl

theorem bind_assoc {γ : Type} (x : Run α) (f : α → Run β) (g : β → Run γ) :
    x >>= f >>= g = x >>= fun a => f a >>= g := by
  obtain ⟨t, a | failure | _⟩ := x
  · exact settle_after t (f a) g fail
  · simp [bind_eq, settle, after, fail]
  · rfl

instance : LawfulMonad Run := .mk' Run
  (fun x => by obtain ⟨t, _ | _ | _⟩ := x <;> simp [Functor.map, settle, after, done, fail])
  (fun a f => settle_done a f fail)
  bind_assoc

/-- The result of a check, or the failure that its fault is. -/
def check {ε : Type} (failure : ε → Failure) : Except ε α → Run α
  | .ok a => done a
  | .error fault => fail (failure fault)

/-- Fails if there is an error. -/
def refuse {ε : Type} (failure : ε → Failure) : Option ε → Run Unit
  | none => done ()
  | some fault => fail (failure fault)

end Run
end LatencyProbe
