import GridBridge.Session.State

/-!
# Session: operations of the bridge

Starting and tearing down, opening instances and caches, and synchronous calls. Objects are kept
under names; an object that is stored under a used name takes the place of the old one, which is
then released. A cache that a reaction still needs is released after it.
-/

namespace GridBridge.Session

open Protocol Seam Bridge Managed Relay

/-- Why a session did not do what it was asked. -/
inductive Refusal where
  /-- No object of this kind is kept under the name. -/
  | missing (what : String)
  | failed (error : BridgeError)
  /-- Waiting could go on for ever; so many calls are pending. -/
  | wouldBlock (pending : Nat)
  deriving DecidableEq, Repr

/-- A step that may be refused. -/
abbrev Request := ExceptT Refusal Step

/-- Takes a step; an error of the bridge refuses the request. -/
def accept {α : Type} (step : Step (Except BridgeError α)) : Request α := do
  match ← (step : Step _) with
  | .ok value => return value
  | .error e => throw (.failed e)

/-- Plays an operation on a thread; an error of the bridge refuses the request. -/
def requestOn {α : Type} (thread : ThreadId) (operation : Operation α) : Request α :=
  accept (perform thread operation)

/-- Plays an operation on the thread of the session. -/
def request {α : Type} (operation : Operation α) : Request α := requestOn mainThread operation

/-- The thing found, or a refusal that names what is missing. -/
def require {α : Type} (what : String) : Option α → Request α
  | some value => return value
  | none => throw (.missing what)

def requireContext : Request Context := do require "ctx" (← get).context

def requireInstance (name : String) : Request Instance := do
  require "instance" ((← get).instances.lookup name)

def requireCache (name : String) : Request Cache := do
  require "cache" ((← get).caches.lookup name)

/-- A thread that did nothing before. -/
def freshThread : Step ThreadId :=
  modifyGet fun s => (s.nextThread, { s with nextThread := s.nextThread + 1 })

/-- The context as a thread uses it. Faults are shown in the log only on the thread of the session. -/
def contextOn (thread : ThreadId) (s : Session) : Option Context :=
  if thread = mainThread then s.context else s.context.map ({ · with describeFaults := false })

/-! ## Handles -/

/-- Changes the count of live handles of the context. -/
def countHandles (f : Nat → Nat) : Step Unit :=
  modify fun s => { s with
    context := s.context.map fun ctx => { ctx with liveHandles := f ctx.liveHandles } }

/-- Plays an operation that opens an instance or a cache, and counts the handle it comes with. -/
def openOn {α : Type} (thread : ThreadId) (operation : Operation α) :
    Step (Except BridgeError α) := do
  match ← perform thread operation with
  | .ok opened =>
    countHandles (· + 1)
    return .ok opened
  | .error e => return .error e

/-- Releases a handle. One that could not be given back stays counted. -/
def releaseOn (thread : ThreadId) (h : Handle) : Step Unit := do
  if ← play thread (h.release (← get).context) then countHandles (· - 1)

def releaseHandle (h : Handle) : Step Unit := releaseOn mainThread h

/-- Keeps an instance under a name. -/
def keepInstance (name : String) (i : Instance) : Step Unit := do
  let old := (← get).instances.lookup name
  modify fun s => { s with instances := (name, i) :: s.instances.filter (·.1 != name) }
  match old with
  | some old => releaseHandle old.handle
  | none => pure ()

/-- A cache is in use while it is kept under a name or a reaction that still waits needs it. -/
def inUse (s : Session) (c : Cache) : Bool :=
  s.caches.any (fun (_, kept) => kept.handle == c.handle) ||
    s.relay.loops.any fun (_, loop) => loop.waiting.any fun w =>
      (w.callback.cache?.map fun needed => needed.handle == c.handle).getD false

/-- Releases a cache that was let go of, unless it is still in use. -/
def releaseCache (c : Cache) : Step Unit := do
  if !inUse (← get) c then releaseHandle c.handle

/-- Keeps a cache under a name. -/
def keepCache (name : String) (c : Cache) : Step Unit := do
  let old := (← get).caches.lookup name
  modify fun s => { s with caches := (name, c) :: s.caches.filter (·.1 != name) }
  match old with
  | some old => releaseCache old
  | none => pure ()

/-! ## Starting and tearing down -/

/-- Tears the context down, if there is one. Handles made from it stay behind. -/
def dropContextOn (thread : ThreadId) : Step Bool := do
  match (← get).context with
  | none => return false
  | some ctx =>
    modify fun s => { s with context := none }
    play thread ctx.tearDown
    return true

def dropContext : Step Bool := dropContextOn mainThread

/-- Starts the runtime on a thread. -/
def startOn (thread : ThreadId) (args : LaunchArgs) (hasErrorCallback : Bool) :
    Step (Except BridgeError Unit) := do
  match ← perform thread (Context.start args) with
  | .ok descriptors =>
    let _ ← dropContextOn thread
    modify fun s => { s with
      context := some { descriptors, hasErrorCallback, describeFaults := s.describeFaults } }
    return .ok ()
  | .error e => return .error e

def start (args : LaunchArgs) (hasErrorCallback : Bool) : Request Unit :=
  accept (startOn mainThread args hasErrorCallback)

def attach : Request Unit := do
  let _ ← requireContext
  request Context.attach

/-! ## Instances and caches -/

/-- Starts an instance and keeps it. -/
def openInstance (as configPath name : String) : Request Instance := do
  let i ← accept (openOn mainThread (Instance.start (← requireContext) configPath name))
  keepInstance as i
  return i

/-- Finds a running instance and keeps it. -/
def findInstance (as name : String) : Request Instance := do
  let i ← accept (openOn mainThread (Instance.find (← requireContext) name))
  keepInstance as i
  return i

/-- Opens a cache of a kept instance and keeps it. -/
def openCache (as source : String) (name : Option String) : Request Cache := do
  let i ← requireInstance source
  let c ← accept (openOn mainThread (i.cache (← get).context name))
  keepCache as c
  return c

def dropInstance (name : String) : Step Bool := do
  match (← get).instances.lookup name with
  | none => return false
  | some i =>
    modify fun s => { s with instances := s.instances.filter (·.1 != name) }
    releaseHandle i.handle
    return true

def dropCache (name : String) : Step Bool := do
  match (← get).caches.lookup name with
  | none => return false
  | some c =>
    modify fun s => { s with caches := s.caches.filter (·.1 != name) }
    releaseCache c
    return true

/-! ## Synchronous calls -/

/-- Plays a call on the thread of the session, or on a new one of its own. -/
def requestCall {α : Type} (ownThread : Bool) (operation : Option Context → Operation α) :
    Request α := do
  let thread ← (if ownThread then freshThread else return mainThread : Step _)
  requestOn thread (operation (contextOn thread (← get)))

def put (on : String) (key value : Int32) (ownThread : Bool) : Request Int32 := do
  let c ← requireCache on
  requestCall ownThread (c.put · key value)

def remove (on : String) (key : Int32) (ownThread : Bool) : Request Bool := do
  let c ← requireCache on
  requestCall ownThread (c.remove · key)

def size (on : String) (ownThread : Bool) : Request UInt64 := do
  let c ← requireCache on
  requestCall ownThread c.size

/-- Binds `count` keys from `key` on, each to its product with `factor`. Answers the last put. -/
def fill (on : String) (key factor : Int32) (count : Nat) : Request (Option Int32) := do
  let c ← requireCache on
  let mut last : Except BridgeError (Option Int32) := .ok none
  for index in List.range count do
    let k := key + Int32.ofNat index
    last := (← (perform mainThread (c.put (← get).context k (k * factor)) : Step _)).map some
  match last with
  | .ok reply => return reply
  | .error e => throw (.failed e)

/-- A target that raw calls are made on. -/
inductive Target where
  | cache (name : String)
  | instanceOf (name : String)
  deriving DecidableEq, Repr

def requireHandle : Target → Request Handle
  | .cache name => do return (← requireCache name).handle
  | .instanceOf name => do return (← requireInstance name).handle

/-- The opcode of a code, or a refusal. -/
def requireOpcode (code : Int32) : Request Opcode :=
  match Opcode.decode code with
  | .ok op => return op
  | .error e => throw (.failed e)

/-- A request buffer with these bytes. -/
def rawRequest (bytes : List UInt8) : Codec.Writer :=
  (Codec.Writer.ofCapacity (max 1 bytes.length) (by omega)).writeAll
    (bytes.map fun b => .byte b.toInt8)

def callIn (on : Target) (code : Int32) (bytes : List UInt8) : Request Int32 := do
  let op ← requireOpcode code
  let h ← requireHandle on
  request (h.inOp (← get).context op (rawRequest bytes))

def callInOut (on : Target) (code : Int32) (bytes : List UInt8) : Request UInt64 := do
  let op ← requireOpcode code
  let h ← requireHandle on
  request (h.inOutOp (← get).context op (rawRequest bytes))

/-- An asynchronous call whose completion is written down as it arrives. -/
def callAsync (on : Target) (code : Int32) (bytes : List UInt8) (data : UInt64) :
    Request Unit := do
  let op ← requireOpcode code
  let h ← requireHandle on
  request (h.inOutOpAsync (← get).context op (rawRequest bytes) .journal data)

/-! ## Pending exceptions -/

/-- Leaves a missing class pending. Says whether the look-up came back empty. -/
def raiseMissing (name : String) : Request Bool := do
  let _ ← requireContext
  request do
    Context.attach
    return (← Script.ask (.findClass name)).isNull

def clearException : Request Unit := do
  let _ ← requireContext
  request do
    Context.attach
    Script.ask .exceptionClear

/-- Takes what is pending as a fault. The error callback does not hear of it. -/
def takePendingFault : Request ManagedFault := do
  let ctx ← requireContext
  request do
    Context.attach
    takeFault ctx.descriptors ctx.describeFaults

end GridBridge.Session
