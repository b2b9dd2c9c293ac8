import AddonLint.Extraction.Deadline

/-!
# Workers and their channels

How a call with a deadline hears of its worker. The call makes a channel, starts a worker that
holds the end to send, and waits at the other end. The worker asks the other extractor, sends what
it says and ends, or ends before. Any number of calls and workers are under way at once, and each
move is one of a single thread.
-/
namespace AddonLint.Deadline

/-- An answer under way, and the worker that sent it. -/
structure Message where
  worker : Nat
  answer : Extracted

/-- A channel has two ends, and each of them is there until it is dropped. -/
structure Channel where
  messages : List Message
  sender : Bool
  receiver : Bool

/-- What comes out of a channel. -/
inductive Received where
  | message (m : Message)
  | disconnected
  | elapsed

namespace Channel

def fresh : Channel := ⟨[], true, true⟩

/-- Without a receiver a message is dropped. -/
def send (m : Message) (c : Channel) : Channel :=
  if c.receiver then { c with messages := c.messages ++ [m] } else c

def dropSender (c : Channel) : Channel := { c with sender := false }

/-- The messages go with the receiver. -/
def dropReceiver (c : Channel) : Channel := { c with messages := [], receiver := false }

/-- A receiver first looks for a message, then whether the sender is gone, and then whether the
time has elapsed. Otherwise it goes on waiting. -/
def receive? (elapsed : Bool) (c : Channel) : Option Received :=
  if !c.receiver then none
  else
    match c.messages with
    | m :: _ => some (.message m)
    | [] => if !c.sender then some .disconnected else if elapsed then some .elapsed else none

end Channel

/-- How far a worker is. -/
inductive Stage where
  | asking
  | answered
  | ended
  deriving DecidableEq, Repr

/-- A worker: what it asks for, and the channel that it sends to. -/
structure Worker where
  image : String
  operator : String
  channel : Nat
  stage : Stage

/-- A call: the image that it names in its errors, and the channel that it waits at. -/
structure Caller where
  image : String
  channel : Nat

/-- A call that has returned, with the worker whose answer it returns, if it is one. -/
structure Return where
  call : Nat
  source : Option Nat
  result : Extracted

/-- What a call returns for what it has received. -/
def conclude (deadline : Duration) (call : Nat) (image : String) : Received → Return
  | .message m => ⟨call, some m.worker, settle image deadline (.answer m.answer)⟩
  | .disconnected => ⟨call, none, settle image deadline .gone⟩
  | .elapsed => ⟨call, none, settle image deadline .elapsed⟩

/-- All channels, workers and calls there are, and the calls that have returned, in this order. -/
structure System where
  channels : List Channel
  workers : List Worker
  callers : List Caller
  returns : List Return

/-- A call starts, a worker sends its answer or ends, or a call looks into its channel, at the end
of its time for the last time. Workers and calls are numbered from zero. -/
inductive Move where
  | start (image operator : String)
  | send (worker : Nat)
  | exit (worker : Nat)
  | look (call : Nat)
  | expire (call : Nat)
  deriving DecidableEq, Repr

namespace System

def empty : System := ⟨[], [], [], []⟩

/-- A call looks into its channel. It returns with what it receives and drops its end. -/
def receive (deadline : Duration) (elapsed : Bool) (call : Nat) (s : System) : System :=
  match s.callers[call]? with
  | none => s
  | some caller =>
    match s.channels[caller.channel]?.bind (Channel.receive? elapsed) with
    | none => s
    | some received =>
      { s with
        channels := s.channels.modify caller.channel Channel.dropReceiver
        returns := s.returns ++ [conclude deadline call caller.image received] }

/-- The system after a move. The other extractor may answer every worker differently. -/
def step (inner : Nat → Extractor) (deadline : Duration) (s : System) : Move → System
  | .start image operator =>
    { s with
      channels := s.channels ++ [.fresh]
      workers := s.workers ++ [⟨image, operator, s.channels.length, .asking⟩]
      callers := s.callers ++ [⟨image, s.channels.length⟩] }
  | .send n =>
    match s.workers[n]? with
    | none => s
    | some w =>
      if w.stage = .asking then
        { s with
          workers := s.workers.modify n fun w => { w with stage := .answered }
          channels := s.channels.modify w.channel (.send ⟨n, inner n w.image w.operator⟩) }
      else s
  | .exit n =>
    match s.workers[n]? with
    | none => s
    | some w =>
      { s with
        workers := s.workers.modify n fun w => { w with stage := .ended }
        channels := s.channels.modify w.channel Channel.dropSender }
  | .look n => s.receive deadline false n
  | .expire n => s.receive deadline true n

def run (inner : Nat → Extractor) (deadline : Duration) (moves : List Move) : System :=
  moves.foldl (step inner deadline) empty

def returnsOf (s : System) (call : Nat) : List Return := s.returns.filter fun r => r.call = call

end System

end AddonLint.Deadline
