import AddonLint.Extraction.Basic

/-!
# Extraction with a deadline

Every call starts a worker that asks another extractor, and waits for it up to the deadline. What
happens first decides the call: the answer of its worker, the end of a worker without an answer, or
the end of the waiting time. An answer that comes too late is dropped.
-/
namespace AddonLint.Deadline

/-- What a waiting call may hear first. -/
inductive Signal where
  | answer (extracted : Extracted)
  | gone
  | elapsed

/-- What a call comes to. -/
def settle (image : String) (deadline : Duration) : Signal → Extracted
  | .answer extracted => extracted
  | .gone => .error (.aborted image "extraction worker exited without a result")
  | .elapsed => .error (.timeout image deadline)

/-- A call: what it asks for, whether its worker is still at work, and what it came to. -/
structure Call where
  image : String
  operator : String
  working : Bool
  result : Option Extracted

/-- Decide a call by a signal, unless it is decided already. -/
def Call.hear (deadline : Duration) (signal : Signal) (c : Call) : Call :=
  match c.result with
  | some _ => c
  | none => { c with result := some (settle c.image deadline signal) }

/-- What may happen: a new call, and to a call with a number that its worker answers, that its
worker ends without an answer, or that its waiting time ends. -/
inductive Event where
  | start (image operator : String)
  | answer (call : Nat)
  | die (call : Nat)
  | elapse (call : Nat)
  deriving DecidableEq, Repr

/-- A worker that is at work ends. -/
def Call.finish (deadline : Duration) (signal : Signal) (c : Call) : Call :=
  if c.working then { c with working := false }.hear deadline signal else c

/-- The calls after an event. Calls are numbered from zero in the order of their starts. -/
def step (inner : Extractor) (deadline : Duration) (calls : List Call) : Event → List Call
  | .start image operator => calls ++ [⟨image, operator, true, none⟩]
  | .answer n =>
    calls.modify n fun c => c.finish deadline (.answer (inner c.image c.operator))
  | .die n => calls.modify n (Call.finish deadline .gone)
  | .elapse n => calls.modify n (Call.hear deadline .elapsed)

def run (inner : Extractor) (deadline : Duration) (events : List Event) : List Call :=
  events.foldl (step inner deadline) []

/-- An extractor whose answers come in time. -/
def inTime (inner : Extractor) (deadline : Duration) : Extractor := fun image operator =>
  settle image deadline (.answer (inner image operator))

end AddonLint.Deadline
