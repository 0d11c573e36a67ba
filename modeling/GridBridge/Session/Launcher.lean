import GridBridge.Session.Asynchronous

/-!
# Session: the launcher's switches and probe

The launcher of the loopback runtime injects faults and reports what the runtime holds.
-/

namespace GridBridge.Session

open Protocol Seam Managed

/-! ## Switches -/

/-- A switch of the launcher. -/
inductive Switch where
  /-- A class can no longer be found. -/
  | hideClass (name : String)
  /-- The next acceptable launch fails with a status. -/
  | failCreate (code : Status)
  | refuseAttach (on : Bool)
  | startReturnsNull (on : Bool)
  /-- The next message look-ups raise. -/
  | failMessages (budget : Budget)
  /-- The next global references are not handed out. -/
  | failGlobals (budget : Budget)
  | duplicates (on : Bool)
  deriving DecidableEq, Repr

def Switch.apply (switch : Switch) (rt : Runtime) : Runtime :=
  let setFaults (f : Faults → Faults) : Runtime := { rt with faults := f rt.faults }
  match switch with
  | .hideClass name => { rt with hidden := name :: rt.hidden }
  | .failCreate code => setFaults fun f => { f with createError := code }
  | .refuseAttach on => setFaults fun f => { f with refuseAttach := on }
  | .startReturnsNull on => setFaults fun f => { f with startReturnsNull := on }
  | .failMessages budget => setFaults fun f => { f with messageFaults := budget }
  | .failGlobals budget => setFaults fun f => { f with globalRefFaults := budget }
  | .duplicates on => setFaults fun f => { f with duplicateCompletions := on }

def setSwitch (switch : Switch) : Step Unit :=
  modify fun s => { s with runtime := switch.apply s.runtime }

/-! ## Probe -/

/-- What the launcher reports of its runtime. -/
structure Probe where
  running : Bool
  destroyed : Bool
  globalRefs : Nat
  localRefs : Nat
  pendingThreads : Nat
  described : Nat
  attachedThreads : Nat
  instances : Nat
  hasEntry : Bool
  deriving DecidableEq, Repr

def probe (rt : Runtime) : Probe where
  running := rt.phase = .running
  destroyed := rt.phase = .destroyed
  globalRefs := rt.refs.count .globalRef
  localRefs := rt.refs.count .localRef
  pendingThreads := rt.pending.length
  described := rt.described
  attachedThreads := rt.attached.length
  instances := rt.grid.instances.length
  hasEntry := rt.entry.isSome

/-! ## The end of a session -/

/-- Names in ascending order. -/
def sortedNames {α : Type} (named : List (String × α)) : List String :=
  (named.map (·.1)).mergeSort fun a b => a ≤ b

/-- Drops what is left: loops, caches and instances, each by name, and then the context. -/
def close : Step Unit := do
  for name in sortedNames (← get).loops do
    let _ ← dropLoop name
  for name in sortedNames (← get).caches do
    let _ ← dropCache name
  for name in sortedNames (← get).instances do
    let _ ← dropInstance name
  let _ ← dropContext

/-! ## Records of one step -/

/-- What one step left besides its answer. -/
structure StepRecord where
  lines : List String
  reported : List ManagedFault
  deriving DecidableEq, Repr

/-- Takes the transcript and the reported faults of the step that has just ended. -/
def takeRecord (s : Session) : StepRecord × Session :=
  ({ lines := s.tap.lines.reverse, reported := s.reported },
    { s with tap := { s.tap with lines := [] }, reported := [] })

end GridBridge.Session
