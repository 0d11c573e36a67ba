/-!
# Protocol: the closed set of operations

Each opcode fixes the class of target it applies to, the shapes in which it may be issued and the
length of its request. A number becomes an opcode through `ofCode?` alone.
-/

namespace GridBridge.Protocol

/-- Operations of protocol version 1. -/
inductive Opcode where
  /-- Key and value, to `opSuccess`. -/
  | put
  /-- Key, to `1` if it was bound and `0` if not. -/
  | remove
  /-- Nothing, to the number of bound keys. -/
  | size
  deriving DecidableEq, Repr

/-- Which operations a target takes. -/
inductive TargetClass where
  /-- The processor of an instance: it takes lookups and no opcode. -/
  | processor
  | cache
  deriving DecidableEq, Repr

/-- How an operation crosses the boundary. -/
inductive Shape where
  /-- Waits for a 32-bit reply. -/
  | inOp
  /-- Waits for a 64-bit reply. -/
  | inOut
  /-- Returns at once; the completion comes later. -/
  | inOutAsync
  deriving DecidableEq, Repr

def TargetClass.name : TargetClass → String
  | .processor => "Processor"
  | .cache => "Cache"

def Shape.name : Shape → String
  | .inOp => "In"
  | .inOut => "InOut"
  | .inOutAsync => "InOutAsync"

namespace Opcode

/-- All opcodes, by code. -/
def all : List Opcode := [.put, .remove, .size]

def code : Opcode → Int32
  | .put => 0
  | .remove => 1
  | .size => 2

def ofCode? (code : Int32) : Option Opcode := all.find? (·.code == code)

theorem ofCode?_code (op : Opcode) : ofCode? op.code = some op := by cases op <;> rfl

/-- The name of the operation as a word. -/
def name : Opcode → String
  | .put => "Put"
  | .remove => "Remove"
  | .size => "Size"

/-- The name on the wire with the code. -/
def label (op : Opcode) : String :=
  let word := match op with
    | .put => "PUT"
    | .remove => "REMOVE"
    | .size => "SIZE"
  s!"{word}({op.code.toInt})"

def targetClass : Opcode → TargetClass
  | .put | .remove | .size => .cache

def supports : Opcode → Shape → Bool
  | .put, .inOp | .put, .inOutAsync => true
  | .remove, .inOp | .remove, .inOutAsync => true
  | .size, .inOut => true
  | _, _ => false

/-- Bytes the request has to hold. -/
def requestLength : Opcode → Nat
  | .put => 8
  | .remove => 4
  | .size => 0

end Opcode

end GridBridge.Protocol
