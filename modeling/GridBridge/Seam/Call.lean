import GridBridge.Protocol.Argument
import GridBridge.Protocol.Names

/-!
# Seam: the calls that reach the managed runtime

The bridge drives a managed runtime through a fixed set of calls. Failures are reported in band: a
call answers null, nothing or a number of no meaning and leaves an exception pending on the calling
thread, which the caller has to look for before it uses the answer.
-/

namespace GridBridge.Seam

open Protocol

/-- What a launcher is given. -/
structure LaunchArgs where
  version : Int32
  options : List String
  ignoreUnrecognized : Bool
  deriving DecidableEq, Repr

/-- Native code that a managed method can be bound to. -/
inductive NativeEntry where
  /-- Passes a completion on to the callback it names. -/
  | completion
  /-- Writes a completion down with the callback it names. -/
  | journal
  deriving DecidableEq, Repr

/-- A native method to be registered on a class. -/
structure NativeMethod where
  name : String
  signature : String
  entry : NativeEntry
  deriving DecidableEq, Repr

/-- One call across the seam. -/
inductive Call where
  | launch (args : LaunchArgs)
  | attach
  | destroy
  | findClass (name : String)
  | getMethodId (cls : Ref) (spec : MethodSpec)
  | getObjectClass (obj : Ref)
  | newString (text : String)
  | getString (str : Ref)
  | callStatic (cls : Ref) (method : MethodId) (args : List Arg)
  | callObject (obj : Ref) (method : MethodId) (args : List Arg)
  | callInt (obj cls : Ref) (method : MethodId) (args : List Arg)
  | callLong (obj cls : Ref) (method : MethodId) (args : List Arg)
  | callVoid (obj cls : Ref) (method : MethodId) (args : List Arg)
  | exceptionCheck
  | exceptionOccurred
  | exceptionDescribe
  | exceptionClear
  | newGlobalRef (obj : Ref)
  | deleteGlobalRef (obj : Ref)
  | deleteLocalRef (obj : Ref)
  | registerNatives (cls : Ref) (methods : List NativeMethod)
  deriving DecidableEq, Repr

namespace Call

/-- What the runtime answers to a call. -/
@[reducible] def Reply : Call → Type
  | .launch _ => Except Status Unit
  | .attach => Except Status Unit
  | .destroy => Unit
  | .findClass _ => Ref
  | .getMethodId .. => Option MethodId
  | .getObjectClass _ => Ref
  | .newString _ => Ref
  | .getString _ => Option String
  | .callStatic .. => Ref
  | .callObject .. => Ref
  | .callInt .. => Int32
  | .callLong .. => Int64
  | .callVoid .. => Unit
  | .exceptionCheck => Bool
  | .exceptionOccurred => Ref
  | .exceptionDescribe => Unit
  | .exceptionClear => Unit
  | .newGlobalRef _ => Ref
  | .deleteGlobalRef _ => Unit
  | .deleteLocalRef _ => Unit
  | .registerNatives .. => Status

/-- The word for the kind of a call. -/
def name : Call → String
  | .launch _ => "launch"
  | .attach => "attach"
  | .destroy => "destroy"
  | .findClass _ => "find_class"
  | .getMethodId .. => "get_method_id"
  | .getObjectClass _ => "get_object_class"
  | .newString _ => "new_string_utf"
  | .getString _ => "get_string_utf"
  | .callStatic .. => "call_static"
  | .callObject .. => "call_object"
  | .callInt .. => "call_int"
  | .callLong .. => "call_long"
  | .callVoid .. => "call_void"
  | .exceptionCheck => "exception_check"
  | .exceptionOccurred => "exception_occurred"
  | .exceptionDescribe => "exception_describe"
  | .exceptionClear => "exception_clear"
  | .newGlobalRef _ => "new_global_ref"
  | .deleteGlobalRef _ => "delete_global_ref"
  | .deleteLocalRef _ => "delete_local_ref"
  | .registerNatives .. => "register_natives"

end Call

end GridBridge.Seam
