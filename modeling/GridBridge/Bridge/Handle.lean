import GridBridge.Bridge.Context
import GridBridge.Codec.Writer

/-!
# Bridge: handles and the calls made through them

A handle is the one owner of a durable reference to a managed target. It does not keep the runtime
alive: each call is given the context as it is now, and fails if there is none any more.
-/

namespace GridBridge.Bridge

open Protocol Seam

/-- Owner of one durable reference. -/
structure Handle where
  target : Ref
  cls : TargetClass
  deriving DecidableEq, Repr

namespace Handle

/-- Makes a call-scoped reference durable. The local reference is given back either way. -/
def promote (ctx : Context) (found : Ref) (cls : TargetClass) : Operation Handle := do
  if found.isNull then throw (.protocolViolation .nullPromotion)
  let target ← Script.ask (.newGlobalRef found)
  Script.ask (.deleteLocalRef found)
  if !target.isNull then return { target, cls }
  if ← Script.ask .exceptionCheck then throw (.promotion (← ctx.fault))
  throw (.promotion .noGlobalReference)

/-- The context, or the error of calling without one. -/
def requireContext : Option Context → Operation Context
  | some ctx => return ctx
  | none => throw .runtimeTornDown

/-- The class through which calls on this target are made. -/
def dispatchClass (h : Handle) (ctx : Context) : Ref :=
  match h.cls with
  | .processor => ctx.descriptors.interopProcessor
  | .cache => ctx.descriptors.interopCache

/-- Longest request that the wire format can name. -/
def maxRequestLength : Nat := 0x7FFFFFFF

/-- Code, address and length of a request. -/
def wireArgs (op : Opcode) (input : Codec.Writer) : Except BridgeError (List Arg) :=
  if input.position ≤ maxRequestLength then
    .ok [.int op.code, .long (.buffer input.bytes), .int (Int32.ofNat input.position)]
  else .error (.protocolViolation (.oversizedRequest op input.position))

/-- Checks a call and gathers what it needs: the context, attached, and the wire arguments. -/
def prepare (h : Handle) (current : Option Context) (op : Opcode) (shape : Shape)
    (input : Codec.Writer) : Operation (Context × List Arg) := do
  liftExcept (op.check h.cls shape)
  let ctx ← requireContext current
  Context.attach
  let args ← liftExcept (wireArgs op input)
  return (ctx, args)

/-- A call that waits for a 32-bit reply. -/
def inOp (h : Handle) (current : Option Context) (op : Opcode) (input : Codec.Writer) :
    Operation Int32 := do
  let (ctx, args) ← h.prepare current op .inOp input
  let reply ← Script.ask
    (.callInt h.target (h.dispatchClass ctx) ctx.descriptors.interopTargetInOp args)
  ctx.checkFault
  return reply

/-- A call that waits for a 64-bit reply. -/
def inOutOp (h : Handle) (current : Option Context) (op : Opcode) (input : Codec.Writer) :
    Operation UInt64 := do
  let (ctx, args) ← h.prepare current op .inOut input
  let reply ← Script.ask
    (.callLong h.target (h.dispatchClass ctx) ctx.descriptors.interopTargetInOutOp args)
  ctx.checkFault
  return reply.toUInt64

/-- A call whose completion goes to `callback` with `data`. The request is consumed before this
returns. -/
def inOutOpAsync (h : Handle) (current : Option Context) (op : Opcode) (input : Codec.Writer)
    (callback : Callback) (data : UInt64) : Operation Unit := do
  let (ctx, args) ← h.prepare current op .inOutAsync input
  Script.ask (.callVoid h.target (h.dispatchClass ctx) ctx.descriptors.interopTargetInOutOpAsync
    (args ++ [.long (.callback callback), .long (.ofNat64 data)]))
  ctx.checkFault

/-- Gives the durable reference back. Says whether it was: a handle that has outlived its context
has nothing to give back, and one whose thread cannot attach leaks. -/
def release (h : Handle) : Option Context → Script Bool
  | none => return false
  | some _ => do
    match ← Script.ask .attach with
    | .ok () =>
      Script.ask (.deleteGlobalRef h.target)
      return true
    | .error _ => return false

end Handle

end GridBridge.Bridge
