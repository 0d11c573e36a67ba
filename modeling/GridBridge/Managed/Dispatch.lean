import GridBridge.Managed.Execute

/-!
# Managed: what the methods do

Every method of the table as a function of receiver and arguments. A method gives a value or throws;
it changes the runtime only on the way to a value, apart from a message fault that it uses up.
-/

namespace GridBridge.Managed

open Protocol Seam Text

/-- A resolved argument. -/
inductive ArgValue where
  | int (value : Int32)
  | long (value : Word)
  | object (value : Option Object)
  deriving DecidableEq, Repr

/-- The value of a call before an object becomes a reference. -/
inductive CallValue where
  | void
  | int (value : Int32)
  | long (value : Int64)
  | object (value : Option Object)
  deriving DecidableEq, Repr

/-- Managed code: it may stop early, and what it changed until then stays. -/
abbrev Code := ExceptT Stop (StateM Runtime)

namespace Code

/-- Throws an exception of a class. -/
def raise {α : Type} (cls : ThrownClass) (message : String) : Code α :=
  throw (.throwing cls message)

/-! ## Arguments -/

def arg (args : List ArgValue) (index : Nat) : Code ArgValue :=
  match args[index]? with
  | some value => return value
  | none => raise .illegalArgument s!"missing argument {index}"

def intArg (args : List ArgValue) (index : Nat) : Code Int32 := do
  match ← arg args index with
  | .int value => return value
  | _ => raise .illegalArgument s!"argument {index} is not an int"

def longArg (args : List ArgValue) (index : Nat) : Code Word := do
  match ← arg args index with
  | .long value => return value
  | _ => raise .illegalArgument s!"argument {index} is not a long"

/-- A string argument; null stands for none. -/
def stringArg (args : List ArgValue) (index : Nat) : Code (Option String) := do
  match ← arg args index with
  | .object none => return none
  | .object (some (.str text)) => return some text
  | .object (some other) =>
    raise .classCast s!"{other.className} cannot be cast to java.lang.String"
  | _ => raise .illegalArgument s!"argument {index} is not an object"

def receiver (self : Option Object) : Code Object :=
  match self with
  | some object => return object
  | none => raise .nullPointer "null receiver"

/-- The exception that a method is called on. -/
def throwableReceiver (self : Option Object) : Code Thrown := do
  match ← receiver self with
  | .throwable thrown => return thrown
  | other => raise .classCast other.className

/-- The cache that a method is called on. -/
def cacheReceiver (self : Option Object) : Code StoreId := do
  match ← receiver self with
  | .cache store => return store
  | other => raise .classCast s!"{other.className} is not an interop target"

/-! ## Requests -/

/-- The opcode of a code, if the shape takes it. -/
def decodeOp (code : Int32) (shape : Shape) : Code Opcode :=
  match Opcode.ofCode? code with
  | none => raise .illegalArgument s!"Unsupported operation type: {code.toInt}"
  | some op =>
    if op.supports shape then return op
    else raise .unsupported s!"{op.label} is not supported as {shape.name}"

/-- Copies the request out of the buffer of the caller. -/
def request (address : Word) (length : Int32) : Code (List UInt8) :=
  if length < 0 then raise .illegalArgument s!"negative buffer length {length.toInt}"
  else if length = 0 then return []
  else
    match address with
    | .buffer bytes => return bytes.take length.toInt.toNat
    | other =>
      if other.isNull then raise .nullPointer "null buffer address" else return []

/-- Target, opcode and request of an operation call. -/
def operation (self : Option Object) (args : List ArgValue) (shape : Shape) :
    Code (StoreId × Opcode × List UInt8) := do
  let store ← cacheReceiver self
  let op ← decodeOp (← intArg args 0) shape
  let bytes ← request (← longArg args 1) (← intArg args 2)
  return (store, op, bytes)

/-- Runs an operation at once. -/
def executeNow (self : Option Object) (args : List ArgValue) (shape : Shape) : Code Int64 := do
  let (store, op, bytes) ← operation self args shape
  let rt ← get
  match rt.grid.execute op store bytes with
  | .ok (grid, result) =>
    set { rt with grid }
    return result
  | .error stop => throw stop

/-! ## Methods -/

/-- The message of an exception. A message fault makes it run out of memory. -/
def getMessage (self : Option Object) : Code CallValue := do
  let thrown ← throwableReceiver self
  let rt ← get
  match rt.faults.messageFaults.take? with
  | some left =>
    set { rt with faults := { rt.faults with messageFaults := left } }
    raise .outOfMemory "Java heap space"
  | none => return .object (some (.str thrown.message))

def className (self : Option Object) : Code CallValue := do
  match ← receiver self with
  | .cls name => return .object (some (.str (dotted name)))
  | other => raise .classCast other.className

/-- A name in a message. -/
def nameText (name : Option String) : String := name.getD "null"

/-- A running instance by name. -/
def findInstance (args : List ArgValue) : Code CallValue := do
  let name ← stringArg args 0
  if (← get).grid.isRunning name then return .object (some (.grid name))
  raise .igniteIllegalState
    ("Ignite instance with provided name doesn't exist. Did you call Ignition.start(..) " ++
      s!"to start an Ignite instance? [name={nameText name}]")

/-- Starts an instance from a file, which only has to exist. -/
def startInstance (args : List ArgValue) : Code CallValue := do
  let configPath ← stringArg args 0
  let name ← stringArg args 1
  let rt ← get
  match configPath.filter fun path => rt.files.isFile (.ofString path) with
  | none =>
    raise .ignite s!"Spring XML configuration path is invalid: {nameText configPath}"
  | some path =>
    if rt.grid.isRunning name then
      raise .ignite
        s!"Ignite instance with this name has already been started: {nameText name}"
    if rt.faults.startReturnsNull then return .object none
    set { rt with grid := rt.grid.start name path }
    return .object (some (.grid name))

/-- The processor of a running instance. -/
def interop (args : List ArgValue) : Code CallValue := do
  match ← arg args 0 with
  | .object (some (.grid name)) =>
    if (← get).grid.isRunning name then return .object (some (.processor name))
    raise .illegalState "Grid is stopped"
  | .object (some other) => raise .classCast other.className
  | _ => raise .nullPointer "ignite is null"

/-- Passes a completion on to the registered entry. -/
def asyncCallback (args : List ArgValue) : Code CallValue := do
  let callback ← longArg args 0
  let data ← longArg args 1
  let resultType ← intArg args 2
  let result ← longArg args 3
  let rt ← get
  match rt.signal? callback data ⟨resultType, result.number?.getD 0⟩ with
  | some signal =>
    set (rt.send [signal])
    return .void
  | none => raise .unsatisfiedLink "InteropUtils.asyncCallback(JJIJ)V"

/-- A cache of an instance; the empty name belongs to none. -/
def openCache (self : Option Object) (args : List ArgValue) : Code CallValue := do
  match ← receiver self with
  | .processor instanceName =>
    let name ← stringArg args 0
    if name = some "" then return .object none
    let rt ← get
    match rt.grid.instance? instanceName with
    | none => raise .illegalState "Grid is stopped"
    | some i =>
      let (store, grid) := rt.grid.openCache instanceName i name
      set { rt with grid }
      return .object (some (.cache store))
  | other => raise .classCast other.className

/-- Queues an operation for the workers. -/
def executeLater (self : Option Object) (args : List ArgValue) : Code CallValue := do
  let (store, op, bytes) ← operation self args .inOutAsync
  let callback ← longArg args 3
  let data ← longArg args 4
  let rt ← get
  if rt.phase ≠ .running then raise .illegalState "Grid is stopping"
  let task : Task := { op, store, request := bytes, callback, data }
  set { rt with tasks := rt.tasks ++ [task] }
  return .void

/-- Runs a method. -/
def dispatch (behaviour : Behaviour) (self : Option Object) (args : List ArgValue) :
    Code CallValue :=
  match behaviour with
  | .throwableToString => do return .object (some (.str (← throwableReceiver self).text))
  | .throwableGetMessage => getMessage self
  | .classGetName => className self
  | .ignitionIgnite => findInstance args
  | .ignitionExStart => startInstance args
  | .utilsInterop => interop args
  | .utilsAsyncCallback => asyncCallback args
  | .processorCache => openCache self args
  | .targetInOp => do return .int (← executeNow self args .inOp).toInt32
  | .targetInOutOp => do return .long (← executeNow self args .inOut)
  | .targetInOutOpAsync => executeLater self args

end Code

/-! ## Workers -/

namespace Runtime

/-- What a task reports: its result, or a failure without any detail. -/
def completionOf : Except Stop Int64 → Completion
  | .ok result => ⟨resultOk, result.toUInt64⟩
  | .error _ => ⟨resultErr, 0⟩

/-- A worker runs one task and signals its completion, twice if duplicates are switched on. -/
def runTask (rt : Runtime) (task : Task) : Runtime :=
  let (outcome, grid) := match rt.grid.execute task.op task.store task.request with
    | .ok (grid, result) => (.ok result, grid)
    | .error stop => (.error stop, rt.grid)
  let rt := { rt with grid }
  match rt.signal? task.callback task.data (completionOf outcome) with
  | none => rt
  | some signal =>
    rt.send (if rt.faults.duplicateCompletions then [signal, signal] else [signal])

/-- A worker takes the oldest task, if there is one. -/
def work? (rt : Runtime) : Option Runtime :=
  match rt.tasks with
  | [] => none
  | task :: rest => some ({ rt with tasks := rest }.runTask task)

end Runtime

end GridBridge.Managed
