import GridBridge.Codec.Reader
import GridBridge.Managed.Runtime

/-!
# Managed: operations on cache contents

The managed end of the opcode table: the request is checked for its length, read field by field and
applied to the contents of one cache.
-/

namespace GridBridge.Managed

open Protocol Codec

/-- Why a managed call stops before its value. -/
inductive Stop where
  | thrown (thrown : Thrown)
  | fatal (cause : Fatal)
  deriving DecidableEq, Repr

/-- Throws an exception of a class. -/
def Stop.throwing (cls : ThrownClass) (message : String) : Stop := .thrown { cls, message }

/-- Reads a key. -/
def readKey (r : Reader) : Except Stop (Int32 × Reader) :=
  match r.read .int with
  | (.ok key, next) => .ok (key, next)
  | (.error misuse, _) => .error (.fatal (.codec misuse))

/-- The contents after an operation, and its result. -/
def applyOp (op : Opcode) (contents : Contents) (request : List UInt8) :
    Except Stop (Contents × Int64) :=
  if request.length < op.requestLength then
    .error (.throwing .illegalArgument
      s!"Malformed {op.label} request: {request.length} bytes")
  else
    match op with
    | .put => do
      let (key, rest) ← readKey (.ofBytes request)
      let (value, _) ← readKey rest
      return (contents.insert key value, opSuccess.toInt64)
    | .remove => do
      let (key, _) ← readKey (.ofBytes request)
      return (contents.erase key, if contents.contains key then 1 else 0)
    | .size => return (contents, Int64.ofNat contents.size)

namespace Grid

/-- Runs an operation on a store. -/
def execute (g : Grid) (op : Opcode) (store : StoreId) (request : List UInt8) :
    Except Stop (Grid × Int64) := do
  let (contents, result) ← applyOp op (g.contents store) request
  return (g.setContents store contents, result)

end Grid

end GridBridge.Managed
