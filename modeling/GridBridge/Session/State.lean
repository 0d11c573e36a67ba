import GridBridge.Bridge.Instance
import GridBridge.Managed.Answer
import GridBridge.Relay.Drain
import GridBridge.Seam.Tap

/-!
# Session: one loopback runtime and everything around it

A session is a launcher with its runtime, the relay of completions, the context of the bridge and
the objects opened through it. Scripts are played against the loopback runtime through the tap, and
completions that the runtime hands out are received at once.
-/

namespace GridBridge.Session

open Protocol Seam Bridge Managed Relay

/-- A further put: key, value and the tag under which its completion is noted. -/
structure FollowUp where
  key : Int32
  value : Int32
  tag : Int
  deriving DecidableEq, Repr

/-- What to do when a completion is delivered: note a tag, and perhaps issue a further put. -/
inductive Reaction where
  | note (tag : Int)
  /-- The further put goes to `cache` and comes back to `loop`. -/
  | chain (tag : Int) (cache : Cache) (loop : LoopId) (put : FollowUp)

namespace Reaction

def tag : Reaction → Int
  | .note tag => tag
  | .chain tag .. => tag

/-- Calls that a reaction still leads to. -/
def following : Reaction → Nat
  | .note _ => 0
  | .chain .. => 1

/-- The cache that a reaction keeps open until it has run or is forgotten. -/
def cache? : Reaction → Option Cache
  | .note _ => none
  | .chain _ cache .. => some cache

end Reaction

/-- A delivered completion under its tag. -/
structure Delivery where
  tag : Int
  completion : Completion
  deriving DecidableEq, Repr

/-- A completion written down as it arrived. -/
structure JournalEntry where
  callback : UInt64
  data : UInt64
  completion : Completion
  deriving DecidableEq, Repr

end GridBridge.Session

namespace GridBridge

open Seam Bridge Managed Relay

structure Session where
  runtime : Runtime := {}
  relay : Relay Session.Reaction := {}
  journal : List Session.JournalEntry := []
  tap : Tap := {}
  context : Option Context := none
  /-- The log takes everything, so faults are shown in it. -/
  describeFaults : Bool := false
  /-- Faults the error callback was told of, oldest first. -/
  reported : List ManagedFault := []
  /-- What reactions noted since a run last handed its notes over, oldest first. -/
  delivered : List Session.Delivery := []
  /-- The number of the next thread; the session itself runs on thread `0`. -/
  nextThread : ThreadId := 1
  /-- Open instances, caches and loops, each under the name it was given. -/
  instances : List (String × Instance) := []
  caches : List (String × Cache) := []
  loops : List (String × LoopId) := []

end GridBridge

namespace GridBridge.Session

open Protocol Seam Bridge Managed Relay

/-- A step of a session. A fatal use ends the step and leaves the state as it was at that point. -/
abbrev Step := ExceptT Fatal (StateM Session)

/-- The thread of the session. -/
def mainThread : ThreadId := 0

/-- The relay of a session. -/
def relayAccess : Access Reaction Step where
  read := do return (← get).relay
  write relay := modify fun s => { s with relay }

/-! ## Completions -/

/-- A callback takes a completion. The relay looks the call up by the data. -/
def receiveAt (s : Session) (target : Callback) (data : Word) (completion : Completion) : Session :=
  match target with
  | .relay =>
    match data.number? with
    | some id => { s with relay := s.relay.signal id completion }
    | none => s
  | .journal =>
    { s with journal := s.journal ++ [⟨0, data.number?.getD 0, completion⟩] }

/-- The completion entry of the bridge: passes a completion on to the callback it names. One without
a callback is dropped. -/
def receiveCompletion (s : Session) (callback data : Word) (completion : Completion) : Session :=
  match callback with
  | .callback target => receiveAt s target data completion
  | _ => s

/-- Takes a completion in through its registered entry. -/
def receiveSignal (s : Session) (signal : Signal) : Session :=
  match signal.entry with
  | .completion => receiveCompletion s signal.callback signal.data signal.completion
  | .journal =>
    { s with journal := s.journal ++
        [⟨signal.callback.number?.getD 0, signal.data.number?.getD 0, signal.completion⟩] }

/-- Takes in all completions that the runtime has handed out. -/
def receiveAll (s : Session) : Session :=
  s.runtime.outbox.foldl receiveSignal { s with runtime := { s.runtime with outbox := [] } }

/-! ## Playing scripts -/

/-- The loopback runtime answers a call on behalf of a thread. -/
def answerDirect (thread : ThreadId) (request : Call) : Step request.Reply := do
  let s ← get
  let (outcome, runtime) := (Managed.answer thread request).run.run s.runtime
  set (receiveAll { s with runtime })
  match outcome with
  | .ok reply => return reply
  | .error cause => throw cause

/-- Leaves a missing class of this name pending. -/
def raiseMissingClass (thread : ThreadId) (name : String) : Step Unit := do
  let _ ← answerDirect thread (.findClass name)

/-- An answer, and the number that was stated for it in full. -/
structure Answered (request : Call) where
  reply : request.Reply
  stated : Option Int := none

/-- Passes the completion on that a substitute was given, if the call is an asynchronous one. -/
def completeFor (substitute : Substitute) (request : Call) : Step Unit :=
  match substitute.completes, request.asyncTarget? with
  | some completion, some (callback, data) =>
    modify fun s => receiveCompletion s callback data completion
  | _, _ => return ()

/-- Raises what a substitute was told to raise, if the call can leave it pending. -/
def raiseFor (thread : ThreadId) (substitute : Substitute) (request : Call) : Step Unit :=
  match substitute.raises with
  | some name => if request.canRaise then raiseMissingClass thread name else return ()
  | none => return ()

/-- A substitute answers a call: first the completion it was given, then its exception. -/
def answerSubstitute (thread : ThreadId) (substitute : Substitute) (request : Call) :
    Step (Answered request) := do
  completeFor substitute request
  raiseFor thread substitute request
  return { reply := substitute.reply request, stated := substitute.stated? request }

/-- An asynchronous operation call is kept instead of being handed on. -/
def hold (callback data : Word) : Step Unit :=
  modify fun s => { s with tap := { s.tap with held := s.tap.held ++ [{ callback, data }] } }

/-- Answers a call that nothing stands in for. An asynchronous operation call may be held back. -/
def answerOrHold (thread : ThreadId) : (request : Call) → Step request.Reply
  | .callVoid obj cls method args => do
    match (← get).tap.holding, (Call.callVoid obj cls method args).asyncTarget? with
    | true, some (callback, data) => hold callback data
    | _, _ => answerDirect thread (.callVoid obj cls method args)
  | request => answerDirect thread request

/-- Answers a call as the tap has it. -/
def answerTapped (thread : ThreadId) (request : Call) : Step (Answered request) := do
  let s ← get
  let (chosen, substitutes) := Substitute.choose request.name s.tap.substitutes
  set { s with tap := { s.tap with substitutes } }
  match chosen with
  | some substitute => answerSubstitute thread substitute request
  | none => return { reply := ← answerOrHold thread request }

/-- Answers a call and writes it down. A fatal use is not written down. -/
def answer (thread : ThreadId) (request : Call) : Step request.Reply := do
  let answered ← answerTapped thread request
  modify fun s => { s with
    tap := s.tap.trace (request.transcript answered.stated answered.reply) }
  return answered.reply

/-- The error callback, where the context has one, hears of a fault. -/
def tellFault (fault : ManagedFault) : Step Unit :=
  modify fun s =>
    if (s.context.map (·.hasErrorCallback)).getD false then
      { s with reported := s.reported ++ [fault] }
    else s

/-- Plays a script on a thread. -/
def play {α : Type} (thread : ThreadId) (script : Script α) : Step α :=
  script.run (answer thread) tellFault

/-- Plays an operation on a thread. -/
def perform {α : Type} (thread : ThreadId) (operation : Operation α) :
    Step (Except BridgeError α) :=
  play thread operation.run

end GridBridge.Session
