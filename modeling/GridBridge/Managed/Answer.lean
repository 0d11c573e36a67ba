import GridBridge.Managed.Dispatch
import GridBridge.Managed.Launch

/-!
# Managed: answers to the calls of the seam

The loopback runtime as a runtime that scripts can be played against. Every call is answered on
behalf of a thread; a fatal use ends the call and leaves the state as it was at that point.
-/

namespace GridBridge.Managed

open Protocol Seam

/-- Answering a call: it may end in a fatal use, and what it changed until then stays. -/
abbrev Answering := ExceptT Fatal (StateM Runtime)

namespace Answering

variable (thread : ThreadId)

/-- Fails if an exception is pending on the thread. -/
def requireClear (activity : String) : Answering Unit := do
  if ((← get).pending? thread).isSome then throw (.exceptionPending activity)

/-- The object behind a reference; none behind the null reference. -/
def resolve (r : Ref) : Answering (Option Object) := do
  if r.isNull then return none
  match (← get).refs.get? r with
  | some object => return some object
  | none => throw (.staleUse r)

/-- The name of the class behind a reference. -/
def classNameAt (r : Ref) : Answering String := do
  match ← resolve r with
  | some (.cls name) => return name
  | other => throw (.notAClass r (describeFound (← get).grid other))

/-- Makes a reference to an object. -/
def makeRef (object : Object) (kind : RefKind) : Answering Ref := do
  let rt ← get
  let (r, refs) := rt.refs.insert object kind
  set { rt with refs }
  return r

/-- A local reference to an object; null for none. -/
def localRef : Option Object → Answering Ref
  | some object => makeRef object .localRef
  | none => return .null

/-- Gives a reference back. -/
def deleteRef (r : Ref) (kind : RefKind) : Answering Unit := do
  let rt ← get
  match rt.refs.remove r kind with
  | .ok refs => set { rt with refs }
  | .error .stale => throw (.staleDelete kind r)
  | .error (.wrongKind actual) => throw (.wrongKind r kind actual)

/-- Leaves an exception pending. -/
def raise (cls : ThrownClass) (message : String) : Answering Unit :=
  modify (·.raise thread { cls, message })

/-! ## Calls of methods -/

/-- An argument with references resolved. -/
def resolveArg : Arg → Answering ArgValue
  | .int value => return .int value
  | .long value => return .long value
  | .object r => return .object (← resolve r)

/-- Fails unless the class, where one is given, inherits the method. -/
def checkClass (entry : MethodEntry) : Option Ref → Answering Unit
  | none => return ()
  | some cls => do
    let name ← classNameAt cls
    if !isSubclass name entry.cls then
      throw (.unrelatedClass entry.cls entry.spec.name name)

/-- Runs a method. A thrown exception becomes pending, and the call has no value. -/
def runMethod (behaviour : Behaviour) (self : Option Object) (values : List ArgValue) :
    Answering CallValue := do
  let (outcome, rt) := (Code.dispatch behaviour self values).run.run (← get)
  set rt
  match outcome with
  | .ok value => return value
  | .error (.thrown thrown) =>
    modify (·.raise thread thrown)
    return .void
  | .error (.fatal cause) => throw cause

/-- Calls a method: as what it is, and through a class that inherits it where one is given. -/
def invoke (receiver cls : Option Ref) (method : MethodId) (args : List Arg) :
    Answering CallValue := do
  requireClear thread "method call"
  let some entry := methodEntry? method | throw (.invalidMethod method)
  if entry.spec.isStatic ≠ receiver.isNone then throw (.staticMismatch entry.spec.name)
  checkClass entry cls
  let self ← match receiver with
    | some r => resolve r
    | none => pure none
  let values ← args.mapM resolveArg
  runMethod thread entry.behaviour self values

/-- The reference to an object value. -/
def refOf : CallValue → Answering Ref
  | .object value => localRef value
  | _ => return .null

/-! ## Registration of native code -/

/-- The one native method that can be registered. -/
def isCompletionMethod (className : String) (method : NativeMethod) : Bool :=
  className == ClassName.interopUtils && method.name == Method.asyncCallback.name &&
    method.signature == Method.asyncCallback.signature

/-- Registers native methods; the last one counts. An unknown one is refused before any is. -/
def register (cls : Ref) (methods : List NativeMethod) : Answering Status := do
  requireClear thread "register_natives"
  let className ← classNameAt cls
  match methods.find? fun method => !isCompletionMethod className method with
  | some method =>
    raise thread .noSuchMethod s!"{className}.{method.name}{method.signature}"
    return Status.err
  | none =>
    if let some method := methods.getLast? then
      modify fun rt => { rt with entry := some method.entry }
    return Status.ok

end Answering

open Answering in
/-- Answers a call on behalf of a thread. -/
def answer (thread : ThreadId) : (request : Call) → Answering request.Reply
  | .launch args => do
    let (outcome, rt) := (← get).launch thread args
    set rt
    return outcome
  | .attach => do
    let (outcome, rt) := (← get).attach thread
    set rt
    return outcome
  | .destroy => modify (·.destroy)
  | .findClass name => do
    requireClear thread "find_class"
    if isKnownClass name && !(← get).hidden.contains name then
      makeRef (.cls name) .localRef
    else
      raise thread .noClassDef name
      return .null
  | .getMethodId cls spec => do
    requireClear thread "get_method_id"
    match findMethod (← classNameAt cls) spec with
    | some id => return some id
    | none =>
      raise thread .noSuchMethod s!"{spec.name}{spec.signature}"
      return none
  | .getObjectClass obj => do
    localRef ((← resolve obj).map fun object => .cls object.className)
  | .newString text => do
    requireClear thread "new_string_utf"
    makeRef (.str text) .localRef
  | .getString str => do
    match ← resolve str with
    | some (.str text) => return some text
    | _ => return none
  | .callStatic _ method args => do refOf (← invoke thread none none method args)
  | .callObject obj method args => do refOf (← invoke thread (some obj) none method args)
  | .callInt obj cls method args => do
    match ← invoke thread (some obj) (some cls) method args with
    | .int value => return value
    | _ => return 0
  | .callLong obj cls method args => do
    match ← invoke thread (some obj) (some cls) method args with
    | .long value => return value
    | _ => return 0
  | .callVoid obj cls method args => do
    let _ ← invoke thread (some obj) (some cls) method args
  | .exceptionCheck => do return ((← get).pending? thread).isSome
  | .exceptionOccurred => do localRef (((← get).pending? thread).map .throwable)
  | .exceptionDescribe => do
    if ((← get).pending? thread).isSome then
      modify fun rt => { rt with described := rt.described + 1 }
  | .exceptionClear => modify (·.clearPending thread)
  | .newGlobalRef obj => do
    let rt ← get
    match rt.faults.globalRefFaults.take? with
    | some left =>
      set { rt with faults := { rt.faults with globalRefFaults := left } }
      raise thread .outOfMemory "Java heap space"
      return .null
    | none =>
      match ← resolve obj with
      | some object => makeRef object .globalRef
      | none => return .null
  | .deleteGlobalRef obj => deleteRef obj .globalRef
  | .deleteLocalRef obj => deleteRef obj .localRef
  | .registerNatives cls methods => register thread cls methods

end GridBridge.Managed
