import GridBridge.Proofs.Bridge.Exact
import GridBridge.Session.Asynchronous

/-!
# The plain machine: a map of maps

What the bridge amounts to for one who uses it: a map from instances and caches to finite maps, the
set of running instances, the handles that were opened, and the updates that were issued and not
carried out yet. There is no runtime in it, no reference and no request. **`Plain.step`** is one
operation, and says what it replies.

Handles are named by their place among those of their kind, newest first, and issued updates by their
place in the queue, oldest first, so that they can be carried out in any order.
-/

namespace GridBridge.Refinement

open Protocol Seam Bridge Managed Relay Session

/-! ## Operations and replies -/

/-- An update that may be issued now and carried out later. -/
inductive Update where
  | put (key value : Int32)
  | remove (key : Int32)
  deriving DecidableEq, Repr

namespace Update

/-- What a map holds after the update. -/
def apply : Update → Contents → Contents
  | .put key value, contents => contents.insert key value
  | .remove key, contents => contents.erase key

/-- What the update comes to: `1` for a put, and whether the key was bound for a removal. -/
def result : Update → Contents → UInt64
  | .put .., _ => 1
  | .remove key, contents => if contents.contains key then 1 else 0

end Update

inductive Op where
  | start (thread : ThreadId) (path name : String)
  | find (thread : ThreadId) (name : String)
  | cache (thread : ThreadId) (source : Nat) (name : Option String)
  | put (thread : ThreadId) (target : Nat) (key value : Int32)
  | remove (thread : ThreadId) (target : Nat) (key : Int32)
  | size (thread : ThreadId) (target : Nat)
  /-- The completion comes back to a loop, where the reaction waits for it. -/
  | issue (thread : ThreadId) (target : Nat) (update : Update) (loop : LoopId) (reaction : Reaction)
  | execute (index : Nat)

inductive Reply where
  /-- There is no handle and no issued update in that place. -/
  | missing
  | refused
  | opened
  | put (result : Int32)
  | removed (bound : Bool)
  | size (count : Nat)
  | issued (id : CallId)
  /-- Calls that were completed, each with what it came to. -/
  | executed (completed : List (CallId × Completion))
  deriving DecidableEq, Repr

/-! ## The machine -/

/-- An update that was issued for a cache under a number. -/
structure Queued where
  address : Address
  update : Update
  id : CallId

structure Plain where
  running : Option String → Bool := fun _ => false
  contents : Address → Contents := fun _ => ∅
  /-- The names behind open instances, newest first. -/
  instances : List (Option String) := []
  /-- The names behind open caches, newest first. -/
  caches : List Address := []
  /-- Updates that were not carried out yet, oldest first. -/
  queue : List Queued := []
  /-- The number of the next update that is issued. -/
  next : CallId := 1

namespace Plain

/-- The machine after one cache has got other contents. -/
def write (p : Plain) (a : Address) (contents : Contents) : Plain :=
  { p with contents := fun b => if b = a then contents else p.contents b }

@[simp] theorem write_self (p : Plain) (a : Address) : p.write a (p.contents a) = p := by
  have hsame : (fun b => if b = a then p.contents a else p.contents b) = p.contents := by
    funext b
    split
    · rename_i hhere
      rw [hhere]
    · rfl
  unfold write
  rw [hsame]

/-- Does something with an open cache. -/
def onCache (p : Plain) (target : Nat) (f : Address → Reply × Plain) : Reply × Plain :=
  match p.caches[target]? with
  | some a => f a
  | none => (.missing, p)

/-- One operation. An instance is started from a file that is there, if its name is not running yet;
it is found if its name is running; a cache is found under any name but the empty one. Names of new
instances, of files and of caches do not get through with a NUL in them. -/
def step (files : Files.FileSystem) : Op → Plain → Reply × Plain
  | .start _ path name, p =>
    let name := Instance.wireName name
    if Passes (some path) ∧ Passes name ∧ files.isFile (.ofString path) = true ∧
        p.running name = false then
      (.opened, { p with
        running := fun other => decide (other = name) || p.running other
        instances := name :: p.instances })
    else (.refused, p)
  | .find _ name, p =>
    let name := Instance.wireName name
    if p.running name = true then (.opened, { p with instances := name :: p.instances })
    else (.refused, p)
  | .cache _ source name, p =>
    match p.instances[source]? with
    | some instanceName =>
      if Passes name ∧ name ≠ some "" then
        (.opened, { p with caches := ⟨instanceName, name⟩ :: p.caches })
      else (.refused, p)
    | none => (.missing, p)
  | .put _ target key value, p =>
    p.onCache target fun a => (.put 1, p.write a ((p.contents a).insert key value))
  | .remove _ target key, p =>
    p.onCache target fun a =>
      (.removed ((p.contents a).contains key), p.write a ((p.contents a).erase key))
  | .size _ target, p => p.onCache target fun a => (.size (p.contents a).size, p)
  | .issue _ target update _ _, p =>
    p.onCache target fun address =>
      (.issued p.next, { p with
        queue := p.queue ++ [{ address, update, id := p.next }]
        next := p.next + 1 })
  | .execute index, p =>
    match p.queue[index]? with
    | some { address, update, id } =>
      (.executed [(id, ⟨resultOk, update.result (p.contents address)⟩)],
        { p.write address (update.apply (p.contents address)) with
          queue := p.queue.eraseIdx index })
    | none => (.missing, p)

/-- Operations in a row, and their replies. -/
def stepAll (files : Files.FileSystem) : List Op → Plain → List Reply × Plain
  | [], p => ([], p)
  | op :: rest, p =>
    let (reply, p) := p.step files op
    let (replies, p) := p.stepAll files rest
    (reply :: replies, p)

end Plain

end GridBridge.Refinement
