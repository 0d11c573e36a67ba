import GridBridge.Protocol.Status

/-!
# Protocol: completions of asynchronous calls
-/

namespace GridBridge.Protocol

/-- What a finished asynchronous call reports, handed on as it is. -/
structure Completion where
  resultType : Int32
  result : UInt64
  deriving DecidableEq, Repr

/-- Whether the result type is the one of success. -/
def Completion.isOk (c : Completion) : Bool := c.resultType == resultOk

def Completion.describe (c : Completion) : String :=
  s!"AsyncResult \x7b result_type: {c.resultType.toInt}, result: {c.result.toNat} \x7d"

/-- Receivers of completions that an asynchronous call can name. -/
inductive Callback where
  /-- Hands the completion to the event loop of the call. -/
  | relay
  /-- Writes the completion down as it arrives. -/
  | journal
  deriving DecidableEq, Repr

end GridBridge.Protocol
