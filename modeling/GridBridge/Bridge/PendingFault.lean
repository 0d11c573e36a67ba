import GridBridge.Bridge.Descriptors

/-!
# Bridge: faults out of pending exceptions

A pending exception is taken off the thread and read through its own accessors. The accessors can
raise too: then the new exception is read in place of the old one, a bounded number of times.
-/

namespace GridBridge.Bridge

open Protocol Seam

/-- Exceptions that are looked at before the attempt is given up. -/
def maxFaultAttempts : Nat := 2

def unknownFaultMessage : String := "Unknown managed runtime error"

def noPendingFaultMessage : String := "No pending managed exception"

/-- Reads a string result and gives the reference to it back. -/
def takeString (str : Ref) : Script (Option String) := do
  if str.isNull then return none
  let text ← Script.ask (.getString str)
  Script.ask (.deleteLocalRef str)
  return text

/-- Reads a string result, unless the call for it raised. What it raised is dropped. -/
def takeStringOrClear (str : Ref) : Script (Option String) := do
  if ← Script.ask .exceptionCheck then
    Script.ask .exceptionClear
    return none
  takeString str

/-- The dotted class name of an object. A fault of the accessor is dropped. -/
def classNameOf (getName : MethodId) (obj : Ref) : Script (Option String) := do
  let cls ← Script.ask (.getObjectClass obj)
  if cls.isNull then return none
  let name ← Script.ask (.callObject cls getName [])
  Script.ask (.deleteLocalRef cls)
  takeStringOrClear name

/-- What a string accessor says of an object. A fault of the accessor is dropped. -/
def textOf (accessor : MethodId) (obj : Ref) : Script (Option String) := do
  takeStringOrClear (← Script.ask (.callObject obj accessor []))

/-- Reads with an accessor, if there is one. -/
def readBy (accessor : Option MethodId) (read : MethodId → Script (Option String)) :
    Script (Option String) :=
  match accessor with
  | some id => read id
  | none => return none

/-- What one look at the pending exception gave. -/
inductive Attempt where
  | read (fault : ManagedFault)
  /-- The message accessor raised; the class of the exception it was asked about. -/
  | raised (className : Option String)
  deriving DecidableEq, Repr

/-- Takes the pending exception off the thread and reads it. With `describe` it is also shown in
the log of the runtime. -/
def takeFaultOnce (d : Descriptors) (describe : Bool) : Script Attempt := do
  let err ← Script.ask .exceptionOccurred
  if describe then Script.ask .exceptionDescribe
  Script.ask .exceptionClear
  let className ← classNameOf d.classGetName err
  let message ← Script.ask (.callObject err d.throwableGetMessage [])
  Script.ask (.deleteLocalRef err)
  if ← Script.ask .exceptionCheck then return .raised className
  let text ← takeString message
  return .read { message := text.getD unknownFaultMessage, className }

/-- Takes the pending exception and reads it in at most `attempts` looks. `firstClass` is the class
of the exception that was looked at first, once there is one. -/
def takeFaultWithin (d : Descriptors) (describe : Bool) :
    Nat → Option (Option String) → Script ManagedFault
  | 0, firstClass => do
    Script.ask .exceptionClear
    return { message := unknownFaultMessage, className := firstClass.join }
  | attempts + 1, firstClass => do
    match ← takeFaultOnce d describe with
    | .read fault => return fault
    | .raised className =>
      takeFaultWithin d describe attempts (some (firstClass.getD className))

/-- Takes the pending exception off the calling thread, as a fault. -/
def takeFault (d : Descriptors) (describe : Bool) : Script ManagedFault := do
  if ← Script.ask .exceptionCheck then
    takeFaultWithin d describe maxFaultAttempts none
  else
    return { message := noPendingFaultMessage }

/-- Class name and text of the exception that a failed start left, as far as the given accessors
reach. No exception is pending afterwards. -/
def describeStartupFault (classGetName throwableToString : Option MethodId) :
    Script (Option String × Option String) := do
  if !(← Script.ask .exceptionCheck) then return (none, none)
  let err ← Script.ask .exceptionOccurred
  Script.ask .exceptionClear
  let className ← readBy classGetName (classNameOf · err)
  let message ← readBy throwableToString (textOf · err)
  Script.ask (.deleteLocalRef err)
  return (className, message)

end GridBridge.Bridge
