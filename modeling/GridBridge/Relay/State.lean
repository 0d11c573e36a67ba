import GridBridge.Protocol.Completion

/-!
# Relay: calls in flight and the loops that wait for them

A completion arrives on some thread of the managed side; its callback has to run on the loop that
issued the call, once. The registry of calls in flight decides which completion of a call counts:
the first one takes the call out, and a later one finds nothing.

Everything that threads may interleave is a step of its own: taking a call out of the registry,
filling its slot, pushing its number to the loop and waking the loop.
-/

namespace GridBridge.Relay

open Protocol

/-- The number of a call, counted up from one. -/
abbrev CallId := UInt64

/-- The number of a loop, in order of creation. -/
abbrev LoopId := Nat

/-- A call that its loop waits for, with the slot for its payload. -/
structure Waiting (κ : Type) where
  id : CallId
  callback : κ
  slot : Option Completion := none

/-- A loop: the calls it waits for, the numbers of those that are ready, oldest first, and the wake
token. -/
structure EventLoop (κ : Type) where
  waiting : List (Waiting κ) := []
  ready : List CallId := []
  token : Bool := false

namespace EventLoop

variable {κ : Type}

/-- The number of calls that the loop waits for. -/
def pending (l : EventLoop κ) : Nat := l.waiting.length

/-- The waiting call with a number. -/
def find? (l : EventLoop κ) (id : CallId) : Option (Waiting κ) := l.waiting.find? (·.id == id)

/-- Waits for one more call. -/
def register (l : EventLoop κ) (id : CallId) (callback : κ) : EventLoop κ :=
  { l with waiting := l.waiting ++ [{ id, callback }] }

/-- Waits no longer for a call. -/
def withdraw (l : EventLoop κ) (id : CallId) : EventLoop κ :=
  { l with waiting := l.waiting.filter (·.id != id) }

/-- Stores a payload where none is stored yet. -/
def fill (l : EventLoop κ) (id : CallId) (payload : Completion) : EventLoop κ :=
  { l with waiting := l.waiting.map fun w =>
      if w.id = id then { w with slot := some (w.slot.getD payload) } else w }

/-- Marks a call as ready. -/
def push (l : EventLoop κ) (id : CallId) : EventLoop κ := { l with ready := l.ready ++ [id] }

/-- Leaves the wake token. Repeated wakes leave one. -/
def unpark (l : EventLoop κ) : EventLoop κ := { l with token := true }

/-- Takes the wake token. -/
def takeToken (l : EventLoop κ) : EventLoop κ := { l with token := false }

/-- The oldest ready number, taken off the queue. -/
def pop? (l : EventLoop κ) : Option (CallId × EventLoop κ) :=
  match l.ready with
  | [] => none
  | id :: rest => some (id, { l with ready := rest })

/-- The callback and payload of a ready number. A number that is not waited for yields nothing, and
neither does one without a payload, which is waited for no longer. -/
def claim (l : EventLoop κ) (id : CallId) : Option (κ × Completion) × EventLoop κ :=
  ((l.find? id).bind fun w => w.slot.map fun payload => (w.callback, payload), l.withdraw id)

end EventLoop

end GridBridge.Relay

namespace GridBridge

/-- All loops and the registry of calls in flight. A call in flight knows its loop. -/
structure Relay (κ : Type) where
  nextCall : Relay.CallId := 1
  nextLoop : Relay.LoopId := 0
  inFlight : List (Relay.CallId × Relay.LoopId) := []
  loops : List (Relay.LoopId × Relay.EventLoop κ) := []

end GridBridge

namespace GridBridge.Relay

open Protocol

variable {κ : Type}

/-! ## Loops -/

def loop? (r : Relay κ) (l : LoopId) : Option (EventLoop κ) := r.loops.lookup l

/-- Changes one loop. A loop that is gone stays gone. -/
def modifyLoop (r : Relay κ) (l : LoopId) (f : EventLoop κ → EventLoop κ) : Relay κ :=
  { r with loops := r.loops.map fun (key, loop) => if key = l then (key, f loop) else (key, loop) }

/-- Creates a loop. -/
def openLoop (r : Relay κ) : LoopId × Relay κ :=
  (r.nextLoop, { r with
    nextLoop := r.nextLoop + 1
    loops := (r.nextLoop, {}) :: r.loops })

/-- Drops a loop. The registry forgets the calls it was waiting for. -/
def dropLoop (r : Relay κ) (l : LoopId) : Relay κ :=
  let ids := ((r.loop? l).map (·.waiting.map (·.id))).getD []
  { r with
    inFlight := r.inFlight.filter fun (id, _) => !ids.contains id
    loops := r.loops.filter (·.1 != l) }

def pending (r : Relay κ) (l : LoopId) : Nat := ((r.loop? l).map (·.pending)).getD 0

/-! ## Issuing -/

/-- Registers a new call with its loop and then as in flight, so that no completion can be earlier
than either. -/
def begin (r : Relay κ) (l : LoopId) (callback : κ) : CallId × Relay κ :=
  let id := r.nextCall
  let r := r.modifyLoop l (·.register id callback)
  (id, { r with nextCall := id + 1, inFlight := (id, l) :: r.inFlight })

/-- Undoes `begin` for a call that failed at once: its callback will not run. -/
def withdraw (r : Relay κ) (l : LoopId) (id : CallId) : Relay κ :=
  { r with inFlight := r.inFlight.filter (·.1 != id) }.modifyLoop l (·.withdraw id)

/-! ## Delivering -/

/-- Takes the oldest ready number off a loop's queue and claims its call. Answers the number, its
callback and payload if there are any, and the relay after it. -/
def claimNext? (r : Relay κ) (l : LoopId) :
    Option (CallId × Option (κ × Completion) × Relay κ) :=
  match (r.loop? l).bind (·.pop?) with
  | none => none
  | some (id, popped) =>
    let (claimed, rest) := popped.claim id
    some (id, claimed, r.modifyLoop l fun _ => rest)

/-! ## Signals, step by step -/

/-- Takes a call out of the registry. -/
def take (r : Relay κ) (id : CallId) : Option LoopId × Relay κ :=
  (r.inFlight.lookup id, { r with inFlight := r.inFlight.filter (·.1 != id) })

/-- A completion signal, all steps in a row. One for a call that is not in flight changes
nothing. -/
def signal (r : Relay κ) (id : CallId) (payload : Completion) : Relay κ :=
  match r.take id with
  | (none, _) => r
  | (some l, r) =>
    r.modifyLoop l (·.fill id payload) |>.modifyLoop l (·.push id) |>.modifyLoop l (·.unpark)

end GridBridge.Relay
