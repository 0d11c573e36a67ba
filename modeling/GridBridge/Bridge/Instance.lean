import GridBridge.Bridge.Handle

/-!
# Bridge: instances and their caches

An instance is reached through its processor, a cache through its instance. Caches map 32-bit keys
to 32-bit values.
-/

namespace GridBridge.Bridge

open Protocol Seam Codec

/-- A running instance. -/
structure Instance where
  handle : Handle
  name : String
  deriving DecidableEq, Repr

/-- A cache; no name selects the default cache. -/
structure Cache where
  handle : Handle
  name : Option String
  deriving DecidableEq, Repr

/-! ## Finding instances -/

namespace Instance

/-- Fails with the pending fault as a failed start, or because nothing came back. -/
def requireStarted (ctx : Context) (found : Ref) : Operation Unit := do
  if ← Script.ask .exceptionCheck then throw (.startup (← ctx.fault))
  if found.isNull then throw (.startup .noResult)

/-- The instance behind a managed object. The local reference to the object is given back. -/
def enter (ctx : Context) (found : Ref) (name : String) : Operation Instance := do
  let processor ← Script.ask
    (.callStatic ctx.descriptors.interopUtils ctx.descriptors.interopUtilsInterop [.object found])
  Script.ask (.deleteLocalRef found)
  requireStarted ctx processor
  let handle ← Handle.promote ctx processor .processor
  return { handle, name }

/-- An empty name stands for the default instance. -/
def wireName (name : String) : Option String := if name.isEmpty then none else some name

/-- Starts an instance from a configuration file. -/
def start (ctx : Context) (configPath name : String) : Operation Instance := do
  Context.attach
  let config ← ctx.newString configPath
  let nameRef ← try ctx.nameString (wireName name) catch e =>
    Script.ask (.deleteLocalRef config)
    throw e
  let found ← Script.ask
    (.callStatic ctx.descriptors.ignitionEx ctx.descriptors.ignitionExStart
      [.object config, .object nameRef, .object .null])
  Script.ask (.deleteLocalRef config)
  Script.ask (.deleteLocalRef nameRef)
  requireStarted ctx found
  enter ctx found name

/-- Finds an instance that is already running. -/
def find (ctx : Context) (name : String) : Operation Instance := do
  Context.attach
  let nameRef ← ctx.nameString (wireName name)
  let found ← Script.ask
    (.callStatic ctx.descriptors.ignition ctx.descriptors.ignitionIgnite [.object nameRef])
  Script.ask (.deleteLocalRef nameRef)
  requireStarted ctx found
  enter ctx found name

/-- Looks a cache up by name; no name selects the default cache. -/
def cache (i : Instance) (current : Option Context) (name : Option String) : Operation Cache := do
  let ctx ← Handle.requireContext current
  Context.attach
  let nameRef ← ctx.nameString name
  let found ← Script.ask
    (.callObject i.handle.target ctx.descriptors.interopProcessorCache [.object nameRef])
  Script.ask (.deleteLocalRef nameRef)
  ctx.checkFault
  if found.isNull then throw (.targetUnavailable (.cache name i.name))
  let handle ← Handle.promote ctx found .cache
  return { handle, name }

end Instance

/-! ## Requests and synchronous calls -/

namespace Cache

/-- The request of a put: key, then value. -/
def putRequest (key value : Int32) : Writer :=
  (Writer.ofCapacity 8 (by decide)).writeAll [.int key, .int value]

/-- The request of a removal: the key. -/
def keyRequest (key : Int32) : Writer := (Writer.ofCapacity 4 (by decide)).write (.int key)

/-- The request without any field. -/
def emptyRequest : Writer := Writer.ofCapacity 1 (by decide)

/-- Binds a key; `opSuccess` once it is stored. -/
def put (c : Cache) (current : Option Context) (key value : Int32) : Operation Int32 :=
  c.handle.inOp current .put (putRequest key value)

/-- Unbinds a key and says whether it was bound. -/
def remove (c : Cache) (current : Option Context) (key : Int32) : Operation Bool := do
  return (← c.handle.inOp current .remove (keyRequest key)) == 1

/-- The number of bound keys. -/
def size (c : Cache) (current : Option Context) : Operation UInt64 :=
  c.handle.inOutOp current .size emptyRequest

end Cache

end GridBridge.Bridge
