import GridBridge.Codec.Block
import GridBridge.Codec.Field
import GridBridge.Codec.Misuse

/-!
# Codec: growing writer

A writer owns one block and appends fields to it. A field that does not fit makes the block grow to
twice its size, or to what the field needs where that is more. The position never passes the size
of the block; the type carries this.
-/

namespace GridBridge.Codec

/-- A writer that has filled the first `position` bytes of its block. -/
structure Writer where
  block : Block
  position : Nat
  inside : position ≤ block.size := by omega

namespace Writer

/-- A writer over a fresh block. -/
def ofCapacity (capacity : Nat) (_hpositive : 0 < capacity) : Writer where
  block := .alloc capacity
  position := 0
  inside := Nat.zero_le _

/-- A writer over a fresh block. A capacity of zero is refused. -/
def new (capacity : Nat) : Except Misuse Writer :=
  if hpositive : 0 < capacity then .ok (ofCapacity capacity hpositive) else .error .zeroCapacity

/-- Bytes the block has room for. -/
def allocated (w : Writer) : Nat := w.block.size

/-- The size a block of `allocated` bytes grows to so that `needed` bytes fit. -/
def grownSize (allocated needed : Nat) : Nat :=
  if allocated * 2 < needed then needed else allocated * 2

/-- The block, grown if `count` more bytes do not fit. -/
def room (w : Writer) (count : Nat) : Block :=
  if w.position + count ≤ w.block.size then w.block
  else w.block.realloc (grownSize w.block.size (w.position + count))

theorem le_size_room (w : Writer) (count : Nat) : w.position + count ≤ (w.room count).size := by
  unfold room grownSize Block.realloc
  split
  · assumption
  · simp only; split <;> omega

/-- Appends one field. -/
def write (w : Writer) (f : Field) : Writer where
  block := (w.room f.encode.length).store w.position f.encode (w.le_size_room _)
  position := w.position + f.encode.length
  inside := w.le_size_room _

/-- Appends fields in order. -/
def writeAll (w : Writer) (fields : List Field) : Writer := fields.foldl write w

/-- The written bytes. -/
def bytes (w : Writer) : List UInt8 := w.block.load w.position

/-- One line for a log. The place of the block is never shown. -/
def describe (w : Writer) : String :=
  s!"OutputStream \x7b data: ADDRESS, pos: {w.position}, alloc_size: {w.allocated} \x7d"

end Writer

end GridBridge.Codec
