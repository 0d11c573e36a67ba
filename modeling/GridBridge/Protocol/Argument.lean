import GridBridge.Protocol.Completion
import GridBridge.Protocol.Reference

/-!
# Protocol: call arguments

A 64-bit argument is a number or an address. What matters of an address is what lies behind it, so
an address stands for its bytes or for the callback it leads to.
-/

namespace GridBridge.Protocol

/-- A 64-bit word on the wire. -/
inductive Word where
  | number (value : Int64)
  | buffer (bytes : List UInt8)
  | callback (target : Callback)
  deriving DecidableEq, Repr

namespace Word

def ofNat64 (value : UInt64) : Word := .number value.toInt64

/-- The word as a number. An address is not a number that anyone may rely on. -/
def number? : Word → Option UInt64
  | .number value => some value.toUInt64
  | _ => none

/-- Whether this is the null address. -/
def isNull : Word → Bool
  | .number value => value == 0
  | _ => false

end Word

/-- One argument of a managed call. -/
inductive Arg where
  | int (value : Int32)
  | long (value : Word)
  | object (value : Ref)
  deriving DecidableEq, Repr

namespace Arg

def asInt? : Arg → Option Int32
  | .int value => some value
  | _ => none

def asLong? : Arg → Option Word
  | .long value => some value
  | _ => none

def asObject? : Arg → Option Ref
  | .object value => some value
  | _ => none

/-- The argument with the name of its type. -/
def describe : Arg → String
  | .int value => s!"Int({value.toInt})"
  | .long (.number value) => s!"Long({value.toInt})"
  | .long (.buffer _) => "Long(BUFFER)"
  | .long (.callback _) => "Long(CALLBACK)"
  | .object value => s!"Object({value.describe})"

end Arg

end GridBridge.Protocol
