/-!
# Codec: raw memory blocks

A block is what an allocator hands out: a number of bytes whose contents are unknown until they
are stored to. Growing a block keeps the bytes that both sizes have and nothing else. A store needs
a proof that it stays inside, so no caller can write past the end.
-/

namespace GridBridge.Codec

/-- A block of `size` bytes. A cell that `cells` does not reach, or that holds `none`, was never
stored to. -/
structure Block where
  size : Nat
  cells : Array (Option UInt8)
  deriving Repr

namespace Block

/-- A fresh block, all of it unknown. -/
def alloc (size : Nat) : Block := ⟨size, #[]⟩

/-- The byte at an offset, where one was stored inside the block. -/
def cell (b : Block) (offset : Nat) : Option UInt8 :=
  if offset < b.size then (b.cells[offset]?).join else none

/-- A block of another size with the same bytes up to the smaller of both sizes. -/
def realloc (b : Block) (size : Nat) : Block := ⟨size, b.cells.take (min b.size size)⟩

/-- Sets one cell, with unknown cells up to it where none were kept yet. -/
def setCell (cells : Array (Option UInt8)) (offset : Nat) (byte : UInt8) : Array (Option UInt8) :=
  if h : offset < cells.size then cells.set offset (some byte)
  else (cells ++ Array.replicate (offset - cells.size) none).push (some byte)

/-- Sets the cells from an offset on. -/
def setCells (cells : Array (Option UInt8)) (offset : Nat) : List UInt8 → Array (Option UInt8)
  | [] => cells
  | byte :: rest => setCells (setCell cells offset byte) (offset + 1) rest

/-- Stores bytes from an offset on. -/
def store (b : Block) (offset : Nat) (bytes : List UInt8)
    (_hinside : offset + bytes.length ≤ b.size) : Block :=
  ⟨b.size, setCells b.cells offset bytes⟩

@[simp] theorem size_store (b : Block) (offset : Nat) (bytes : List UInt8)
    (h : offset + bytes.length ≤ b.size) : (b.store offset bytes h).size = b.size := rfl

/-- The known bytes among the first `count`. -/
def load (b : Block) (count : Nat) : List UInt8 :=
  (b.cells.take (min count b.size)).toList.filterMap id

end Block

end GridBridge.Codec
