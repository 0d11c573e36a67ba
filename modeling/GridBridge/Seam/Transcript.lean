import GridBridge.Seam.Call
import GridBridge.Text.Hex

/-!
# Seam: transcripts

A call and its answer as one line. References are shown by number, a request buffer by its bytes,
and a callback and its data by name only.
-/

namespace GridBridge.Seam

open Protocol

namespace Transcript

def ref (r : Ref) : String := s!"#{r.bits.toNat}"

def method (m : MethodId) : String := s!"m{m.bits.toNat}"

/-- One argument. A word behind a callback is the data of that callback. -/
def args : List Arg → List String
  | [] => []
  | .long (.callback _) :: .long _ :: rest => "cb" :: "data" :: args rest
  | .long (.callback _) :: rest => "cb" :: args rest
  | .long (.buffer bytes) :: rest => s!"[{Text.hexBytes bytes}]" :: args rest
  | .long (.number value) :: rest => s!"j{value.toInt}" :: args rest
  | .int value :: rest => s!"i{value.toInt}" :: args rest
  | .object value :: rest => ref value :: args rest

/-- Receiver, class, method and arguments of a call. -/
def target (refs : List Ref) (m : MethodId) (arguments : List Arg) : String :=
  let fixed := refs.map ref ++ [method m]
  let shown := if arguments.isEmpty then [""] else args arguments
  ",".intercalate (fixed ++ shown)

def outcome : Except Status Unit → String
  | .ok () => "ok"
  | .error code => toString code.toInt

end Transcript

namespace Transcript

/-- The number of a method that was looked up; `0` for none. -/
def methodNumber : Option MethodId → Int
  | some id => id.bits.toNat
  | none => 0

end Transcript

open Transcript in
/-- A call with its answer. A number that was stated in full stands for the one answered. -/
def Call.transcript (stated : Option Int) : (request : Call) → request.Reply → String
  | .launch _, reply => s!"launch->{outcome reply}"
  | .attach, reply => s!"attach->{outcome reply}"
  | .destroy, _ => "destroy"
  | .findClass name, reply => s!"find_class({name})->{ref reply}"
  | .getMethodId cls spec, reply =>
    s!"get_method_id({ref cls},{spec.name}{spec.signature},{spec.isStatic})->" ++
      toString (stated.getD (methodNumber reply))
  | .getObjectClass obj, reply => s!"get_object_class({ref obj})->{ref reply}"
  | .newString text, reply => s!"new_string_utf({text})->{ref reply}"
  | .getString str, reply => s!"get_string_utf({ref str})->" ++ Option.getD reply "<none>"
  | .callStatic cls m arguments, reply =>
    s!"call_static({target [cls] m arguments})->{ref reply}"
  | .callObject obj m arguments, reply =>
    s!"call_object({target [obj] m arguments})->{ref reply}"
  | .callInt obj cls m arguments, reply =>
    s!"call_int({target [obj, cls] m arguments})->{stated.getD (Int32.toInt reply)}"
  | .callLong obj cls m arguments, reply =>
    s!"call_long({target [obj, cls] m arguments})->{stated.getD (Int64.toInt reply)}"
  | .callVoid obj cls m arguments, _ =>
    s!"call_void({target [obj, cls] m arguments})->{stated.getD 0}"
  | .exceptionCheck, reply => s!"exception_check->{reply}"
  | .exceptionOccurred, reply => s!"exception_occurred()->{ref reply}"
  | .exceptionDescribe, _ => "exception_describe"
  | .exceptionClear, _ => "exception_clear"
  | .newGlobalRef obj, reply => s!"new_global_ref({ref obj})->{ref reply}"
  | .deleteGlobalRef obj, _ => s!"delete_global_ref({ref obj})"
  | .deleteLocalRef obj, _ => s!"delete_local_ref({ref obj})"
  | .registerNatives cls methods, reply =>
    let shown := ",".intercalate (methods.map fun m => m.name ++ m.signature)
    s!"register_natives({ref cls},{shown})->{stated.getD (Int32.toInt reply)}"

end GridBridge.Seam
