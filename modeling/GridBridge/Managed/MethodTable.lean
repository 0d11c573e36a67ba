import GridBridge.Managed.ClassTable
import GridBridge.Protocol.Reference

/-!
# Managed: methods

The methods of the loopback runtime. An identifier is the place of a method in the table, counted
from one. A look-up tries the class and then its ancestors.
-/

namespace GridBridge.Managed

open Protocol

/-- What a method does. -/
inductive Behaviour where
  | throwableToString
  | throwableGetMessage
  | classGetName
  | ignitionIgnite
  | ignitionExStart
  | utilsInterop
  | utilsAsyncCallback
  | processorCache
  | targetInOp
  | targetInOutOp
  | targetInOutOpAsync
  deriving DecidableEq, Repr

/-- A method, where it is declared and what it does. -/
structure MethodEntry where
  cls : String
  spec : MethodSpec
  behaviour : Behaviour
  deriving DecidableEq, Repr

def methodTable : List MethodEntry := [
  ⟨ClassName.throwable, Method.toString, .throwableToString⟩,
  ⟨ClassName.throwable, Method.getMessage, .throwableGetMessage⟩,
  ⟨ClassName.cls, Method.getName, .classGetName⟩,
  ⟨ClassName.ignition, Method.ignite, .ignitionIgnite⟩,
  ⟨ClassName.ignitionEx, Method.startWithClosure, .ignitionExStart⟩,
  ⟨ClassName.interopUtils, Method.interop, .utilsInterop⟩,
  ⟨ClassName.interopUtils, Method.asyncCallback, .utilsAsyncCallback⟩,
  ⟨ClassName.interopProcessor, Method.cache, .processorCache⟩,
  ⟨ClassName.interopTarget, Method.inOp, .targetInOp⟩,
  ⟨ClassName.interopTarget, Method.inOutOp, .targetInOutOp⟩,
  ⟨ClassName.interopTarget, Method.inOutOpAsync, .targetInOutOpAsync⟩]

/-- The place of a method declared on exactly this class. -/
def declaredMethod (cls : String) (spec : MethodSpec) : Option Nat :=
  methodTable.findIdx? fun entry => entry.cls == cls && entry.spec == spec

/-- The identifier of a method of the class or of its nearest ancestor that declares it. -/
def findMethod (cls : String) (spec : MethodSpec) : Option MethodId :=
  ((lineage cls).findSome? fun name => declaredMethod name spec).map fun index =>
    ⟨UInt64.ofNat (index + 1)⟩

/-- The method that an identifier denotes. -/
def methodEntry? (id : MethodId) : Option MethodEntry :=
  if id.bits == 0 then none else methodTable[id.bits.toNat - 1]?

end GridBridge.Managed
