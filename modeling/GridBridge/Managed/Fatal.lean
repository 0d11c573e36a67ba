import GridBridge.Codec.Misuse
import GridBridge.Managed.Grid
import GridBridge.Managed.MethodTable
import GridBridge.Managed.RefTable

/-!
# Managed: fatal uses of the runtime

A real runtime may crash when it is called with an exception pending, a stale reference or a wrong
identifier. The loopback runtime notices all of these and ends the call.
-/

namespace GridBridge.Managed

open Protocol Text

/-- A use of the runtime that no correct caller makes. -/
inductive Fatal where
  | exceptionPending (activity : String)
  | invalidMethod (id : MethodId)
  | staticMismatch (method : String)
  | unrelatedClass (declaring method actual : String)
  /-- A class was expected; `found` says in words what was there. -/
  | notAClass (r : Ref) (found : String)
  | staleUse (r : Ref)
  | staleDelete (kind : RefKind) (r : Ref)
  | wrongKind (r : Ref) (asked actual : RefKind)
  | codec (misuse : Codec.Misuse)
  deriving DecidableEq, Repr

def Fatal.message : Fatal → String
  | .exceptionPending activity => s!"{activity} called with an exception pending"
  | .invalidMethod id => s!"invalid method id {id.describe}"
  | .staticMismatch method => s!"static/instance mismatch calling {method}"
  | .unrelatedClass declaring method actual =>
    s!"{declaring}.{method} called through unrelated class {actual}"
  | .notAClass r found => s!"{r.describe} is not a class reference: {found}"
  | .staleUse r => s!"use of stale reference {r.describe}"
  | .staleDelete kind r => s!"deleting stale {kind.name} reference {r.describe}"
  | .wrongKind r asked actual =>
    s!"deleting {r.describe} as a {asked.name} reference, but it is {actual.name}"
  | .codec misuse => misuse.message

/-- The object in words, with the contents of a cache. -/
def Object.describe (g : Grid) : Object → String
  | .cls name => s!"Class \x7b name: {quoted name} \x7d"
  | .str text => s!"Str({quoted text})"
  | .throwable thrown =>
    s!"Throwable \x7b class: {quoted (dotted thrown.cls.name)}, message: " ++
      s!"{quotedOption (some thrown.message)} \x7d"
  | .grid name => s!"Ignite \x7b instance: {quotedOption name} \x7d"
  | .processor name => s!"Processor \x7b instance: {quotedOption name} \x7d"
  | .cache store =>
    let pairs := (g.contents store).toList.map fun (key, value) => s!"{key.toInt}: {value.toInt}"
    "Cache \x7b entries: Mutex \x7b data: \x7b" ++ ", ".intercalate pairs ++
      "\x7d, poisoned: false, .. \x7d \x7d"

/-- What a reference was found to lead to, in words. -/
def describeFound (g : Grid) : Option Object → String
  | some object => s!"Some({object.describe g})"
  | none => "None"

end GridBridge.Managed
