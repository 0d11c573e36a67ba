import GridBridge.Bridge.PendingFault

/-!
# Bridge: the context of a started runtime

A context owns one embedded runtime. Starting is all or nothing: whatever fails after the runtime
exists takes it down again. Tearing down gives the class references back and destroys the runtime.
-/

namespace GridBridge.Bridge

open Protocol Seam

/-- A started runtime and what is kept about it. -/
structure Context where
  descriptors : Descriptors
  /-- Show every fault in the log of the runtime before it is read. -/
  describeFaults : Bool := false
  /-- Faults are told to an error callback. -/
  hasErrorCallback : Bool := false
  /-- Handles promoted from this context and not released. -/
  liveHandles : Nat := 0
  deriving DecidableEq, Repr

namespace Context

/-! ## Starting -/

/-- Takes the runtime down after a failed start and says what was wrong: in the words of the pending
exception where they can be read, else by what was missing. -/
def abortStart (code : Status) (what : String) (classGetName throwableToString : Option MethodId) :
    Script BridgeError := do
  let (className, message) ← describeStartupFault classGetName throwableToString
  Script.ask .destroy
  return .embeddingStart code (message.getD s!"failed to resolve {what}") className

/-- The native method through which completions come back. -/
def completionMethod : NativeMethod :=
  ⟨Method.asyncCallback.name, Method.asyncCallback.signature, .completion⟩

/-- Creates the runtime, resolves every descriptor and registers the completion entry. -/
def start (args : LaunchArgs) : Operation Descriptors := do
  match ← Script.ask (.launch args) with
  | .error code =>
    throw (.embeddingStart code
      s!"failed to create the managed runtime (status {code.toInt})" none)
  | .ok () => pure ()
  match ← Script.ask .attach with
  | .error code =>
    Script.ask .destroy
    throw (.embeddingStart code "failed to attach the starting thread" none)
  | .ok () => pure ()
  match ← Descriptors.resolve with
  | .error failure =>
    throw (← abortStart Status.err failure.missing.what failure.classGetName
      failure.throwableToString)
  | .ok d =>
    let status ← Script.ask (.registerNatives d.interopUtils [completionMethod])
    if status = Status.ok then return d
    d.release
    throw (← abortStart status "native completion entry" (some d.classGetName)
      (some d.throwableToString))

/-! ## While the runtime is up -/

/-- Attaches the calling thread. Threads stay attached. -/
def attach : Operation Unit := do
  match ← Script.ask .attach with
  | .ok () => return ()
  | .error code => throw (.attach code)

/-- Takes the pending fault and tells the error callback of it. -/
def fault (ctx : Context) : Script ManagedFault := do
  let fault ← takeFault ctx.descriptors ctx.describeFaults
  Script.tell fault
  return fault

/-- Fails with the pending fault, if there is one. -/
def checkFault (ctx : Context) : Operation Unit := do
  if ← Script.ask .exceptionCheck then throw (.managedFault (← ctx.fault))

/-- Creates a managed string. The caller gives the reference back. -/
def newString (ctx : Context) (text : String) : Operation Ref := do
  if text.toList.contains '\x00' then throw (.protocolViolation (.nulInText text))
  let str ← Script.ask (.newString text)
  if !str.isNull then return str
  if ← Script.ask .exceptionCheck then throw (.managedFault (← ctx.fault))
  throw (.managedFault .noResult)

/-- A managed string for a name; the null reference for none. -/
def nameString (ctx : Context) : Option String → Operation Ref
  | some name => ctx.newString name
  | none => return .null

/-! ## Tearing down -/

/-- Clears what is pending, gives the class references back and destroys the runtime. If the thread
cannot attach, the runtime is destroyed all the same. -/
def tearDown (ctx : Context) : Script Unit := do
  match ← Script.ask .attach with
  | .ok () =>
    if ← Script.ask .exceptionCheck then Script.ask .exceptionClear
    ctx.descriptors.release
  | .error _ => pure ()
  Script.ask .destroy

end Context

end GridBridge.Bridge
