import GridBridge.Files.FileSystem
import GridBridge.Managed.Fatal
import GridBridge.Seam.Call

/-!
# Managed: the state of the loopback runtime

The loopback runtime stands in for a managed runtime: classes, references, one pending exception per
thread, a registered completion entry and tasks that workers run later. Its switches inject faults.
-/

namespace GridBridge.Managed

open Protocol Seam

/-- Threads are told apart by number. -/
abbrev ThreadId := Nat

/-- Where the one runtime of a launcher stands. -/
inductive Phase where
  | idle
  | running
  | destroyed
  deriving DecidableEq, Repr

/-! ## Fault switches -/

/-- How many more times a fault is injected. -/
inductive Budget where
  | count (left : Nat)
  | endless
  deriving DecidableEq, Repr

namespace Budget

/-- The largest 64-bit count stands for no end. -/
def ofCount (n : Nat) : Budget := if n = 0xFFFFFFFFFFFFFFFF then .endless else .count n

/-- Uses one unit; `none` if there is none left. -/
def take? : Budget → Option Budget
  | .endless => some .endless
  | .count 0 => none
  | .count (left + 1) => some (.count left)

end Budget

/-- Switches for injecting faults. -/
structure Faults where
  /-- Status with which the next acceptable launch fails; `0` for none. -/
  createError : Status := 0
  refuseAttach : Bool := false
  /-- Starting an instance answers null and raises nothing. -/
  startReturnsNull : Bool := false
  messageFaults : Budget := .count 0
  globalRefFaults : Budget := .count 0
  /-- Every completion of a task is signalled twice. -/
  duplicateCompletions : Bool := false
  deriving DecidableEq, Repr

/-! ## Asynchronous work -/

/-- An operation that a worker runs later. The request was copied when the task was made. -/
structure Task where
  op : Opcode
  store : StoreId
  request : List UInt8
  callback : Word
  data : Word
  deriving DecidableEq, Repr

/-- A completion on its way through the registered entry. -/
structure Signal where
  entry : NativeEntry
  callback : Word
  data : Word
  completion : Completion
  deriving DecidableEq, Repr

/-! ## State -/

/-- The loopback runtime as its launcher sees it. -/
structure Runtime where
  phase : Phase := .idle
  refs : RefTable := {}
  /-- The exception that a thread has not cleared. -/
  pending : List (ThreadId × Thrown) := []
  attached : List ThreadId := []
  /-- Classes that cannot be found. -/
  hidden : List String := []
  entry : Option NativeEntry := none
  grid : Grid := {}
  /-- Tasks that no worker has run yet, oldest first. -/
  tasks : List Task := []
  /-- Completions handed to native code and not yet received, oldest first. -/
  outbox : List Signal := []
  options : List String := []
  /-- Exceptions shown in the log. -/
  described : Nat := 0
  faults : Faults := {}
  files : Files.FileSystem := {}

namespace Runtime

/-- The exception pending on a thread. -/
def pending? (rt : Runtime) (thread : ThreadId) : Option Thrown := rt.pending.lookup thread

/-- Clears what is pending on a thread. -/
def clearPending (rt : Runtime) (thread : ThreadId) : Runtime :=
  { rt with pending := rt.pending.filter (·.1 != thread) }

/-- Leaves an exception pending on a thread, in place of an older one. -/
def raise (rt : Runtime) (thread : ThreadId) (thrown : Thrown) : Runtime :=
  { rt with pending := (thread, thrown) :: rt.pending.filter (·.1 != thread) }

/-- Attaches a thread. -/
def attachThread (rt : Runtime) (thread : ThreadId) : Runtime :=
  if rt.attached.contains thread then rt else { rt with attached := thread :: rt.attached }

/-- A completion through the registered entry, if there is one. -/
def signal? (rt : Runtime) (callback data : Word) (completion : Completion) : Option Signal :=
  rt.entry.map fun entry => { entry, callback, data, completion }

/-- Hands completions to native code. -/
def send (rt : Runtime) (signals : List Signal) : Runtime :=
  { rt with outbox := rt.outbox ++ signals }

end Runtime

end GridBridge.Managed
