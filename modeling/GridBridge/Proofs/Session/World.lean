import GridBridge.Proofs.Managed.Mirrors
import GridBridge.Session.Launcher

/-!
# Worlds: a session and what its user owns

An **`Act`** is one thing that can happen to a session: an operation of the bridge on some thread, the
drop of a handle or of the context, a switch of the launcher, a turn of a worker, or a step of an
event loop. A callback that an event loop runs does nothing by itself; what it does are further acts.

A **`World`** is a session with the handles that its user owns, and it counts promotions and drops.
`Goes` is one act, and `Reaches` puts acts in a row. Calls are made only through handles that are
owned, and each handle is dropped at most once.
-/

namespace GridBridge.Session

open Protocol Seam Bridge Managed Relay

/-! ## Acts -/

inductive Act where
  | switch (change : Switch)
  | start (thread : ThreadId) (args : LaunchArgs) (hasErrorCallback : Bool)
  | attach (thread : ThreadId)
  | openInstance (thread : ThreadId) (configPath name : String)
  | findInstance (thread : ThreadId) (name : String)
  | openCache (thread : ThreadId) (source : Instance) (name : Option String)
  | put (thread : ThreadId) (cache : Cache) (key value : Int32)
  | remove (thread : ThreadId) (cache : Cache) (key : Int32)
  | size (thread : ThreadId) (cache : Cache)
  | callIn (thread : ThreadId) (handle : Handle) (op : Opcode) (input : Codec.Writer)
  | callInOut (thread : ThreadId) (handle : Handle) (op : Opcode) (input : Codec.Writer)
  | callAsync (thread : ThreadId) (handle : Handle) (op : Opcode) (input : Codec.Writer)
      (callback : Callback) (data : UInt64)
  /-- Puts and removals whose completion comes back to a loop are calls of this kind. -/
  | issue (thread : ThreadId) (handle : Handle) (op : Opcode) (input : Codec.Writer)
      (loop : LoopId) (reaction : Reaction)
  | dropHandle (thread : ThreadId) (handle : Handle)
  | dropContext (thread : ThreadId)
  | openLoop
  | dropLoop (loop : LoopId)
  /-- A loop takes one ready number off its queue. -/
  | deliver (loop : LoopId)
  /-- A worker runs a task. -/
  | work

/-- How an act ended: with a handle, without one, or in an error of the bridge. -/
abbrev Outcome := Except BridgeError (Option Handle)

namespace Act

/-- Only whether it succeeded counts. -/
def quietly {α : Type} (step : Step (Except BridgeError α)) : Step Outcome := do
  return (← step).map fun _ => none

/-- The handle that was opened counts. -/
def opening {α : Type} (handle : α → Handle) (step : Step (Except BridgeError α)) :
    Step Outcome := do
  return (← step).map fun opened => some (handle opened)

/-- Without a context there is nothing to call an operation on. -/
def onContext (thread : ThreadId) (step : Context → Step Outcome) : Step Outcome := do
  match contextOn thread (← get) with
  | some ctx => step ctx
  | none => return .ok none

/-- Calls with the context as the thread uses it now. -/
def calling {α : Type} (thread : ThreadId) (operation : Option Context → Operation α) :
    Step Outcome := do
  quietly (perform thread (operation (contextOn thread (← get))))

/-- Carries an act out. -/
def run : Act → Step Outcome
  | .switch change => do
    setSwitch change
    return .ok none
  | .start thread args hasErrorCallback => quietly (startOn thread args hasErrorCallback)
  | .attach thread => onContext thread fun _ => quietly (perform thread Context.attach)
  | .openInstance thread configPath name =>
    onContext thread fun ctx =>
      opening (·.handle) (openOn thread (Instance.start ctx configPath name))
  | .findInstance thread name =>
    onContext thread fun ctx => opening (·.handle) (openOn thread (Instance.find ctx name))
  | .openCache thread source name => do
    opening (·.handle) (openOn thread (source.cache (contextOn thread (← get)) name))
  | .put thread cache key value => calling thread (cache.put · key value)
  | .remove thread cache key => calling thread (cache.remove · key)
  | .size thread cache => calling thread cache.size
  | .callIn thread handle op input => calling thread (handle.inOp · op input)
  | .callInOut thread handle op input => calling thread (handle.inOutOp · op input)
  | .callAsync thread handle op input callback data =>
    calling thread (handle.inOutOpAsync · op input callback data)
  | .issue thread handle op input loop reaction =>
    quietly (issueFrom thread handle op input loop reaction)
  | .dropHandle thread handle => do
    releaseOn thread handle
    return .ok none
  | .dropContext thread => do
    let _ ← dropContextOn thread
    return .ok none
  | .openLoop => do
    modify fun s => { s with relay := s.relay.openLoop.2 }
    return .ok none
  | .dropLoop loop => do
    modify fun s => { s with relay := s.relay.dropLoop loop }
    return .ok none
  | .deliver loop => do
    let _ ← deliverNext relayAccess (fun _ _ => return ()) loop
    return .ok none
  | .work => do
    let _ ← workOnce
    return .ok none

/-- The handle that an act needs. -/
def needs : Act → Option Handle
  | .openCache _ source _ => some source.handle
  | .put _ cache .. | .remove _ cache _ | .size _ cache => some cache.handle
  | .callIn _ handle .. | .callInOut _ handle .. | .callAsync _ handle .. | .issue _ handle ..
  | .dropHandle _ handle => some handle
  | _ => none

end Act

/-! ## Worlds -/

structure World where
  session : Session
  /-- Handles that were promoted and not dropped, newest first. -/
  owned : List Handle := []
  /-- Promotions that succeeded. -/
  promoted : Nat := 0
  /-- Handles that were dropped while threads could attach. -/
  released : Nat := 0

namespace World

/-- A session at its beginning: nothing was launched, and no call is answered for the runtime or held
back. -/
structure Fresh (s : Session) : Prop where
  phase : s.runtime.phase = .idle
  refs : s.runtime.refs = {}
  pending : s.runtime.pending = []
  context : s.context = none
  substitutes : s.tap.substitutes = []
  holding : s.tap.holding = false

/-- Whether threads can attach: there is a context, and its runtime takes them. -/
def admits (w : World) : Bool := w.session.context.isSome && w.session.runtime.admits

/-- The world after an act that ended so. -/
def after (w : World) (act : Act) (outcome : Outcome) (s : Session) : World where
  session := s
  owned :=
    match act, outcome with
    | .dropHandle _ handle, _ => w.owned.erase handle
    | _, .ok (some handle) => handle :: w.owned
    | _, _ => w.owned
  promoted :=
    match outcome with
    | .ok (some _) => w.promoted + 1
    | _ => w.promoted
  released :=
    match act with
    | .dropHandle .. => if w.admits then w.released + 1 else w.released
    | _ => w.released

/-- An act needs no handle but one that is owned. -/
def Allows (w : World) (act : Act) : Prop := ∀ handle, act.needs = some handle → handle ∈ w.owned

/-- The act is allowed, ends so, and makes the other world of this one. -/
structure Goes (w : World) (act : Act) (outcome : Outcome) (w' : World) : Prop where
  allowed : w.Allows act
  ran : act.run.run.run w.session = (.ok outcome, w'.session)
  after : w' = w.after act outcome w'.session

/-- One world comes after another one, act by act. -/
inductive Reaches : World → World → Prop where
  | refl (w : World) : Reaches w w
  | step {w w' w'' : World} {act : Act} {outcome : Outcome} (hbefore : Reaches w w')
      (hgoes : w'.Goes act outcome w'') : Reaches w w''

/-- A world that a session comes to from its beginning. -/
def Reachable (w : World) : Prop := ∃ s, Fresh s ∧ Reaches { session := s } w

end World

end GridBridge.Session
