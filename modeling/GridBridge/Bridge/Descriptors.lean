import GridBridge.Seam.Script

/-!
# Bridge: descriptors

Every class reference and method identifier that the fixed operations need, resolved in one go when
a runtime starts. Class references are made durable one by one; if a step fails, those made so far
are given back before the failure is reported.
-/

namespace GridBridge.Bridge

open Protocol Seam

/-- Class references and method identifiers of a started runtime. -/
structure Descriptors where
  throwable : Ref
  throwableToString : MethodId
  throwableGetMessage : MethodId
  cls : Ref
  classGetName : MethodId
  ignition : Ref
  ignitionIgnite : MethodId
  ignitionEx : Ref
  ignitionExStart : MethodId
  interopUtils : Ref
  interopUtilsInterop : MethodId
  interopUtilsAsyncCallback : MethodId
  interopProcessor : Ref
  interopProcessorCache : MethodId
  interopTarget : Ref
  interopTargetInOp : MethodId
  interopTargetInOutOp : MethodId
  interopTargetInOutOpAsync : MethodId
  interopCache : Ref
  deriving DecidableEq, Repr

namespace Descriptors

/-- The durable class references, in the order in which they were made. -/
def classes (d : Descriptors) : List Ref :=
  [d.throwable, d.cls, d.ignition, d.ignitionEx, d.interopUtils, d.interopProcessor,
    d.interopTarget, d.interopCache]

/-- The method identifiers, in the order in which they were resolved. -/
def methods (d : Descriptors) : List MethodId :=
  [d.throwableToString, d.throwableGetMessage, d.classGetName, d.ignitionIgnite,
    d.ignitionExStart, d.interopUtilsInterop, d.interopUtilsAsyncCallback,
    d.interopProcessorCache, d.interopTargetInOp, d.interopTargetInOutOp,
    d.interopTargetInOutOpAsync]

/-- Gives every class reference back. Method identifiers need no release. -/
def release (d : Descriptors) : Script Unit :=
  d.classes.forM fun cls => Script.ask (.deleteGlobalRef cls)

end Descriptors

/-! ## Resolution -/

/-- The name that could not be resolved. -/
inductive Unresolved where
  | cls (name : String)
  | globalReference (className : String)
  | method (className : String) (spec : MethodSpec)
  deriving DecidableEq, Repr

def Unresolved.what : Unresolved → String
  | .cls name => s!"class {name}"
  | .globalReference className => s!"global reference to {className}"
  | .method className spec => s!"method {className}.{spec.name}{spec.signature}"

/-- Resolution stopped part way. The exception it left is still pending; the methods that describe
an exception are kept where they were resolved in time. -/
structure ResolveFailure where
  missing : Unresolved
  classGetName : Option MethodId
  throwableToString : Option MethodId
  deriving DecidableEq, Repr

namespace Descriptors

/-- What resolution has obtained so far: durable references and the two describing methods. -/
structure Progress where
  globals : List Ref := []
  classGetName : Option MethodId := none
  throwableToString : Option MethodId := none
  deriving DecidableEq, Repr

/-- A step of resolution. Progress made before a failure is kept. -/
abbrev Resolving := ExceptT Unresolved (StateT Progress Script)

/-- Makes one call. -/
def Resolving.ask (request : Call) : Resolving request.Reply :=
  monadLift (Script.ask request)

/-- Finds a class and makes the reference to it durable. The local reference is given back. -/
def resolveClass (name : String) : Resolving Ref := do
  let found ← Resolving.ask (.findClass name)
  if found.isNull then throw (.cls name)
  let kept ← Resolving.ask (.newGlobalRef found)
  Resolving.ask (.deleteLocalRef found)
  if kept.isNull then throw (.globalReference name)
  modify fun p => { p with globals := p.globals ++ [kept] }
  return kept

/-- Looks a method up on a resolved class. -/
def resolveMethod (cls : Ref) (className : String) (spec : MethodSpec) : Resolving MethodId := do
  match ← Resolving.ask (.getMethodId cls spec) with
  | some id => return id
  | none => throw (.method className spec)

/-- All descriptors, in a fixed order. -/
def resolveAll : Resolving Descriptors := do
  let throwable ← resolveClass ClassName.throwable
  let throwableToString ← resolveMethod throwable ClassName.throwable Method.toString
  modify fun p => { p with throwableToString := some throwableToString }
  let throwableGetMessage ← resolveMethod throwable ClassName.throwable Method.getMessage
  let cls ← resolveClass ClassName.cls
  let classGetName ← resolveMethod cls ClassName.cls Method.getName
  modify fun p => { p with classGetName := some classGetName }
  let ignition ← resolveClass ClassName.ignition
  let ignitionIgnite ← resolveMethod ignition ClassName.ignition Method.ignite
  let ignitionEx ← resolveClass ClassName.ignitionEx
  let ignitionExStart ← resolveMethod ignitionEx ClassName.ignitionEx Method.startWithClosure
  let interopUtils ← resolveClass ClassName.interopUtils
  let interopUtilsInterop ← resolveMethod interopUtils ClassName.interopUtils Method.interop
  let interopUtilsAsyncCallback ←
    resolveMethod interopUtils ClassName.interopUtils Method.asyncCallback
  let interopProcessor ← resolveClass ClassName.interopProcessor
  let interopProcessorCache ←
    resolveMethod interopProcessor ClassName.interopProcessor Method.cache
  let interopTarget ← resolveClass ClassName.interopTarget
  let interopTargetInOp ← resolveMethod interopTarget ClassName.interopTarget Method.inOp
  let interopTargetInOutOp ← resolveMethod interopTarget ClassName.interopTarget Method.inOutOp
  let interopTargetInOutOpAsync ←
    resolveMethod interopTarget ClassName.interopTarget Method.inOutOpAsync
  let interopCache ← resolveClass ClassName.interopCache
  return {
    throwable, throwableToString, throwableGetMessage, cls, classGetName, ignition,
    ignitionIgnite, ignitionEx, ignitionExStart, interopUtils, interopUtilsInterop,
    interopUtilsAsyncCallback, interopProcessor, interopProcessorCache, interopTarget,
    interopTargetInOp, interopTargetInOutOp, interopTargetInOutOpAsync, interopCache }

/-- Resolves every descriptor. On failure no durable reference is left. -/
def resolve : Script (Except ResolveFailure Descriptors) := do
  let (outcome, progress) ← resolveAll.run.run {}
  match outcome with
  | .ok descriptors => return .ok descriptors
  | .error missing =>
    progress.globals.forM fun kept => Script.ask (.deleteGlobalRef kept)
    return .error {
      missing
      classGetName := progress.classGetName
      throwableToString := progress.throwableToString }

end Descriptors

end GridBridge.Bridge
