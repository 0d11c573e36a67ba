/-!
# Codec: uses that the contract rules out

Both ends of a buffer are written against one layout, so a read past the declared length, an empty
allocation or a null pointer with a length is a defect of the caller and ends the call.
-/

namespace GridBridge.Codec

/-- A use of a stream that no correct caller makes. -/
inductive Misuse where
  | zeroCapacity
  | nullPointer (length : Nat)
  | overrun (wanted offset length : Nat)
  deriving DecidableEq, Repr

def Misuse.message : Misuse → String
  | .zeroCapacity => "stream capacity must be positive"
  | .nullPointer length => s!"null stream pointer with length {length}"
  | .overrun wanted offset length =>
    s!"stream overrun: reading {wanted} bytes at offset {offset} of a {length}-byte stream"

end GridBridge.Codec
