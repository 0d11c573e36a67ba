import GridBridge.Codec.Writer

/-!
# Codec: bounded reader

A reader walks over bytes of a declared length. A read that does not fit is fatal and moves
nothing, so a narrower read after it still works.
-/

namespace GridBridge.Codec

/-- A cursor over bytes of fixed length. -/
structure Reader where
  data : Array UInt8
  position : Nat
  inside : position ≤ data.size := by omega

namespace Reader

def ofArray (data : Array UInt8) : Reader where
  data := data
  position := 0
  inside := Nat.zero_le _

def ofBytes (bytes : List UInt8) : Reader := ofArray bytes.toArray

/-- Reads back what a writer has written so far. -/
def ofWriter (w : Writer) : Reader := ofBytes w.bytes

/-- The first `length` bytes at an address. The null address is allowed for no bytes only. -/
def ofAddress (address : Option (List UInt8)) (length : Nat) : Except Misuse Reader :=
  if length = 0 then .ok (ofBytes [])
  else
    match address with
    | none => .error (.nullPointer length)
    | some bytes => .ok (ofBytes (bytes.take length))

def length (r : Reader) : Nat := r.data.size

def remaining (r : Reader) : Nat := r.data.size - r.position

def isEmpty (r : Reader) : Bool := r.data.size == 0

/-- The next `count` bytes, without moving. -/
def peek (r : Reader) (count : Nat) : List UInt8 :=
  (r.data.extract r.position (r.position + count)).toList

/-- Reads one value: what came of it, and the reader afterwards. -/
def read (r : Reader) (k : Kind) : Except Misuse k.Value × Reader :=
  if h : r.position + k.width ≤ r.data.size then
    (.ok (k.decode (r.peek k.width)),
      { data := r.data, position := r.position + k.width, inside := h })
  else (.error (.overrun k.width r.position r.data.size), r)

/-- Reads values of the given kinds in order, up to one that does not fit. -/
def readAll (r : Reader) : List Kind → Except Misuse (List Field) × Reader
  | [] => (.ok [], r)
  | k :: kinds =>
    match r.read k with
    | (.error misuse, left) => (.error misuse, left)
    | (.ok value, next) =>
      let (outcome, last) := next.readAll kinds
      (outcome.map (k.field value :: ·), last)

end Reader

end GridBridge.Codec
