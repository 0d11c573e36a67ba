/-!
# Protocol: versions and status codes

Numbers on which both sides of the boundary agree.
-/

namespace GridBridge.Protocol

/-- Version of the opcode table and the buffer layouts. -/
def protocolVersion : Nat := 1

/-- Interface version asked of the managed runtime. -/
def runtimeVersion : Int32 := 0x00010006

/-- Outcome of a call to the launcher or of a registration; `0` is success. -/
abbrev Status := Int32

namespace Status

def ok : Status := 0
def err : Status := -1
def detached : Status := -2
def version : Status := -3
def noMemory : Status := -4
def alreadyExists : Status := -5
def invalid : Status := -6

end Status

/-- Reply of a confirmed operation. -/
def opSuccess : Int32 := 1

/-- Result type of a completion that succeeded. -/
def resultOk : Int32 := 1

/-- Result type of a completion that failed. -/
def resultErr : Int32 := -1

end GridBridge.Protocol
