import GridBridge.Relay.State

/-!
# Relay: delivering what is ready

A loop takes ready numbers off its queue one by one and runs their callbacks. A callback may issue
further calls, whose completions are delivered in the same go if they arrive in time. `react` runs
one callback in whatever world the relay lives in, and `Access` says where it is kept there.
-/

namespace GridBridge.Relay

open Protocol

/-- Where a world keeps its relay. -/
structure Access (κ : Type) (m : Type → Type) where
  read : m (Relay κ)
  write : Relay κ → m Unit

variable {κ : Type} {m : Type → Type} [Monad m] (world : Access κ m)

/-- Takes one ready number and runs its callback, if it has one to run. Says whether it did; `none`
if no number was ready. -/
def deliverNext (react : κ → Completion → m Unit) (l : LoopId) : m (Option Bool) := do
  match (← world.read).claimNext? l with
  | none => return none
  | some (_, claimed, after) =>
    world.write after
    match claimed with
    | some (callback, payload) =>
      react callback payload
      return some true
    | none => return some false

/-- Delivers until nothing is ready, and at most `limit` numbers. Returns how many callbacks ran. -/
def drainWithin (react : κ → Completion → m Unit) (l : LoopId) : Nat → m Nat
  | 0 => return 0
  | limit + 1 => do
    match ← deliverNext world react l with
    | none => return 0
    | some ran => do
      let more ← drainWithin react l limit
      return (if ran then 1 else 0) + more

/-- What the items of a list count for together. -/
def total {α : Type} (count : α → Nat) : List α → Nat
  | [] => 0
  | item :: rest => count item + total count rest

/-- A bound on the numbers one go can take off any queue: those that are ready, the calls in flight,
and the calls that callbacks still issue, which `follow` counts. -/
def drainLimit (follow : κ → Nat) (r : Relay κ) : Nat :=
  r.inFlight.length +
    total (fun (_, l) => l.ready.length + total (follow ·.callback) l.waiting) r.loops

/-- Delivers until nothing is ready. -/
def drain (follow : κ → Nat) (react : κ → Completion → m Unit) (l : LoopId) : m Nat := do
  drainWithin world react l (drainLimit follow (← world.read))

end GridBridge.Relay
