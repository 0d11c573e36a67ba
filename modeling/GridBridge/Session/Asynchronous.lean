import GridBridge.Session.Operations

/-!
# Session: asynchronous calls and event loops

Waiting is where the workers of the loopback runtime get their turn: a step that waits lets them run
their tasks, oldest first, one at a time, until what it waits for has come.
-/

namespace GridBridge.Session

open Protocol Seam Bridge Managed Relay

/-! ## Issuing -/

/-- Issues a call on a thread; its completion comes back to a loop. If it fails at once, its reaction
never runs. -/
def issueFrom (thread : ThreadId) (h : Handle) (op : Opcode) (input : Codec.Writer) (l : LoopId)
    (reaction : Reaction) : Step (Except BridgeError Unit) := do
  let id ← modifyGet fun s =>
    let (id, relay) := s.relay.begin l reaction
    (id, { s with relay })
  match ← perform thread (h.inOutOpAsync (contextOn thread (← get)) op input .relay id) with
  | .ok () => return .ok ()
  | .error e =>
    modify fun s => { s with relay := s.relay.withdraw l id }
    return .error e

def issue (h : Handle) (op : Opcode) (input : Codec.Writer) (l : LoopId) (reaction : Reaction) :
    Step (Except BridgeError Unit) :=
  issueFrom mainThread h op input l reaction

/-- Notes a delivered completion. -/
def noteDelivery (tag : Int) (completion : Completion) : Step Unit :=
  modify fun s => { s with delivered := s.delivered ++ [{ tag, completion }] }

/-- The tag of a further call that was refused. -/
def refusedTag : Int := -1

/-- Whether a key does not come after another one. The first number that differs decides. -/
def inOrder : List Int → List Int → Bool
  | [], _ => true
  | _ :: _, [] => false
  | a :: as, b :: bs => a < b || (a == b && inOrder as bs)

/-- The order of deliveries: by tag, result type and result. -/
def Delivery.le (a b : Delivery) : Bool :=
  let key (d : Delivery) : List Int :=
    [d.tag, d.completion.resultType.toInt, d.completion.result.toNat]
  inOrder (key a) (key b)

/-- Notes the tag of a reaction and issues the call it leads to. -/
def carryOut (reaction : Reaction) (completion : Completion) : Step Unit := do
  noteDelivery reaction.tag completion
  match reaction with
  | .note _ => pure ()
  | .chain _ cache l put =>
    match ← issue cache.handle .put (Cache.putRequest put.key put.value) l (.note put.tag) with
    | .ok () => pure ()
    | .error _ => noteDelivery refusedTag completion

/-- Lets go of the cache that a reaction needed. -/
def letGo (reaction : Reaction) : Step Unit :=
  match reaction.cache? with
  | some cache => releaseCache cache
  | none => return ()

/-- Runs a reaction. Its cache is let go of also when it ends in a fatal use. -/
def react (reaction : Reaction) (completion : Completion) : Step Unit := do
  try carryOut reaction completion finally letGo reaction

/-! ## Loops -/

/-- Drops a loop. Its calls are forgotten, and their reactions with them. -/
def dropLoop (name : String) : Step Bool := do
  match (← get).loops.lookup name with
  | none => return false
  | some l =>
    let waiting := (((← get).relay.loop? l).map (·.waiting)).getD []
    modify fun s => { s with
      loops := s.loops.filter (·.1 != name)
      relay := s.relay.dropLoop l }
    for cache in (waiting.filterMap (·.callback.cache?)).eraseDups do releaseCache cache
    return true

/-- Creates a loop and keeps it. -/
def openLoop (name : String) : Step Unit := do
  let l ← modifyGet fun s =>
    let (l, relay) := s.relay.openLoop
    (l, { s with relay })
  let _ ← dropLoop name
  modify fun s => { s with loops := (name, l) :: s.loops }

def requireLoop (name : String) : Request LoopId := do
  require "loop" ((← get).loops.lookup name)

/-- Calls that a loop waits for. -/
def pending (l : LoopId) : Step Nat := do return (← get).relay.pending l

/-- Issues a call by name and says how many its loop waits for then. -/
def issueOn (h : Handle) (op : Opcode) (input : Codec.Writer) (l : LoopId) (reaction : Reaction) :
    Request Nat := do
  accept (issue h op input l reaction)
  pending l

/-- The reaction of a call on loop `l`. A further put goes to the cache kept under a name. -/
def reactionFor (l : LoopId) (on : String) (tag : Int) : Option FollowUp → Request Reaction
  | none => return .note tag
  | some put => do return .chain tag (← requireCache on) l put

def putAsync (on loop : String) (key value : Int32) (tag : Int) (follow : Option FollowUp) :
    Request Nat := do
  let l ← requireLoop loop
  let c ← requireCache on
  issueOn c.handle .put (Cache.putRequest key value) l (← reactionFor l on tag follow)

def removeAsync (on loop : String) (key : Int32) (tag : Int) (follow : Option FollowUp) :
    Request Nat := do
  let l ← requireLoop loop
  let c ← requireCache on
  issueOn c.handle .remove (Cache.keyRequest key) l (← reactionFor l on tag follow)

/-- Issues a raw call. A further put goes to the cache `on`, whatever the target is. -/
def issueRaw (target : Target) (on loop : String) (code : Int32) (bytes : List UInt8) (tag : Int)
    (follow : Option FollowUp) : Request Nat := do
  let l ← requireLoop loop
  let reaction ← reactionFor l on tag follow
  let op ← requireOpcode code
  let h ← requireHandle target
  issueOn h op (rawRequest bytes) l reaction

/-! ## Waiting -/

/-- A worker runs one task, if there is one. -/
def workOnce : Step Bool := do
  match (← get).runtime.work? with
  | none => return false
  | some runtime =>
    modify fun s => receiveAll { s with runtime }
    return true

/-- Workers run tasks until a condition holds, and at most `limit` of them. -/
def workUntil (holds : Session → Bool) : Nat → Step Unit
  | 0 => return ()
  | limit + 1 => do
    if holds (← get) then return ()
    if ← workOnce then workUntil holds limit

/-- How long a loop waits when nothing is ready. -/
inductive Patience where
  | forever
  | upTo (milliseconds : Nat)
  deriving DecidableEq, Repr

/-- How a wait ended. -/
inductive Woken where
  | woken
  | timedOut
  /-- Nothing is left that could wake the loop. -/
  | never
  deriving DecidableEq, Repr

def hasToken (l : LoopId) (s : Session) : Bool := ((s.relay.loop? l).map (·.token)).getD false

/-- Waits for the wake token and takes it. Without any patience no worker gets a turn. -/
def park (l : LoopId) (patience : Patience) : Step Woken := do
  if patience ≠ .upTo 0 then workUntil (hasToken l) (← get).runtime.tasks.length
  if hasToken l (← get) then
    modify fun s => { s with relay := s.relay.modifyLoop l (·.takeToken) }
    return .woken
  return if patience = .forever then .never else .timedOut

/-- Delivers what is ready on a loop. -/
def drainLoop (l : LoopId) : Step Nat := drain relayAccess Reaction.following react l

/-- Waits and delivers until something was delivered, nothing is pending or time is up, with at most
`limit` wakes. `none` if it would wait for ever. -/
def awaitDelivery (l : LoopId) (patience : Patience) : Nat → Step (Option Nat)
  | 0 => return none
  | limit + 1 => do
    match ← park l patience with
    | .never => return none
    | .timedOut => return some (← drainLoop l)
    | .woken =>
      let count ← drainLoop l
      if count > 0 || (← pending l) == 0 then return some count
      awaitDelivery l patience limit

/-- Delivers what is ready, and waits for something if nothing is. -/
def runOnce (l : LoopId) (patience : Patience) : Step (Option Nat) := do
  let count ← drainLoop l
  if count > 0 || (← pending l) == 0 then return some count
  awaitDelivery l patience ((← get).runtime.tasks.length + 2)

/-- Delivers until nothing is pending, in at most `limit` goes. -/
def runWithin (l : LoopId) : Nat → Step (Option Nat)
  | 0 => return some 0
  | limit + 1 => do
    if (← pending l) == 0 then return some 0
    match ← runOnce l .forever with
    | none => return none
    | some count => return (← runWithin l limit).map (count + ·)

/-- Goes that a run can take: each delivers at least one call. -/
def runLimit (l : LoopId) (s : Session) : Nat :=
  ((s.relay.loop? l).map fun loop =>
    total (fun w => w.callback.following + 1) loop.waiting).getD 0

/-- Delivers until nothing is pending. `none` if it would wait for ever. -/
def run (l : LoopId) : Step (Option Nat) := do runWithin l (runLimit l (← get))

/-- What a run came to: how many calls it delivered, and what was noted. -/
structure Run where
  count : Nat
  delivered : List Delivery
  deriving DecidableEq, Repr

/-- Hands the notes over at the end of a run, with those of earlier runs that came to no end. -/
def endRun (count : Nat) : Step Run :=
  modifyGet fun s => ({ count, delivered := s.delivered }, { s with delivered := [] })

/-- Runs a loop to its end. Refused while a held call, which only the caller can complete, may be
what the loop waits for. -/
def runLoop (name : String) : Request Run := do
  let l ← requireLoop name
  let waiting ← pending l
  if waiting > 0 && (← get).tap.awaitsCompletion then throw (.wouldBlock waiting)
  match ← (run l : Step _) with
  | some count => endRun count
  | none => throw (.wouldBlock (← pending l))

def runLoopOnce (name : String) (patience : Patience) : Request Run := do
  let l ← requireLoop name
  match ← (runOnce l patience : Step _) with
  | some count => endRun count
  | none => throw (.wouldBlock (← pending l))

/-! ## Completing by hand -/

/-- How a completion is handed in. -/
inductive Route where
  /-- Through the native entry. -/
  | entry
  /-- Through the managed method that is bound to it. That call is not written down. -/
  | method
  deriving DecidableEq, Repr

/-- Completes a held call, with its callback or with none. -/
def completeHeld (index : Nat) (completion : Completion) (withoutCallback : Bool) (route : Route) :
    Request Unit := do
  let held ← require "call" ((← get).tap.held[index]?)
  let callback : Word := if withoutCallback then .number 0 else held.callback
  match route with
  | .entry => modify fun s => receiveCompletion s callback held.data completion
  | .method =>
    let ctx ← requireContext
    request Context.attach
    let _ ← (answerTapped mainThread (.callStatic ctx.descriptors.interopUtils
      ctx.descriptors.interopUtilsAsyncCallback
      [.long callback, .long held.data, .int completion.resultType,
        .long (.ofNat64 completion.result)]) : Step _)
  if !withoutCallback then modify fun s => { s with tap := s.tap.markCompleted index }

/-- Completes a call that nobody issued, through the callback of the first held call. -/
def completeUnknown (completion : Completion) : Request Unit := do
  let held ← require "call" ((← get).tap.held[0]?)
  modify fun s => receiveCompletion s held.callback (.ofNat64 0xFFFFFFFFFFFFFFFF) completion

/-- The order of journal entries: by callback, data, result type and result. -/
def JournalEntry.le (a b : JournalEntry) : Bool :=
  let key (e : JournalEntry) : List Int :=
    [e.callback.toNat, e.data.toNat, e.completion.resultType.toInt, e.completion.result.toNat]
  inOrder (key a) (key b)

/-- Waits until so many completions were written down, and takes all of them in order. -/
def awaitJournal (count : Nat) : Step (List JournalEntry) := do
  workUntil (fun s => count ≤ s.journal.length) (← get).runtime.tasks.length
  modifyGet fun s => (s.journal.mergeSort JournalEntry.le, { s with journal := [] })

/-- A binding of a cache, read past the bridge. -/
def entry (instanceName cacheName : Option String) (key : Int32) (s : Session) : Option Int32 :=
  s.runtime.grid.entry? instanceName cacheName key

/-- Waits until a key is bound. -/
def awaitEntry (instanceName cacheName : Option String) (key : Int32) : Step (Option Int32) := do
  workUntil (fun s => (entry instanceName cacheName key s).isSome) (← get).runtime.tasks.length
  return entry instanceName cacheName key (← get)

end GridBridge.Session
