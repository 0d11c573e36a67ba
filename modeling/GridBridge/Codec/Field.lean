/-!
# Codec: fields and their wire form

A request buffer is a sequence of fields laid end to end without tags or padding. Every field is
written in little-endian two's complement, so its wire form is `littleEndian` of its bits.
`ofLittleEndian_littleEndian` says that nothing is lost below `256 ^ n`.
-/

namespace GridBridge.Codec

/-- The `n` lowest bytes of a number, lowest first. -/
def littleEndian : Nat → Nat → List UInt8
  | 0, _ => []
  | n + 1, v => UInt8.ofNat v :: littleEndian n (v / 256)

/-- The number whose bytes these are, lowest first. -/
def ofLittleEndian : List UInt8 → Nat
  | [] => 0
  | b :: rest => b.toNat + 256 * ofLittleEndian rest

@[simp] theorem length_littleEndian (n v : Nat) : (littleEndian n v).length = n := by
  induction n generalizing v with
  | zero => rfl
  | succ n ih => simp [littleEndian, ih]

/-- Reading back gives the number modulo the width. -/
theorem ofLittleEndian_littleEndian (n v : Nat) :
    ofLittleEndian (littleEndian n v) = v % Nat.pow 256 n := by
  induction n generalizing v with
  | zero => simp [littleEndian, ofLittleEndian, Nat.mod_one]
  | succ n ih =>
    have hlow : (UInt8.ofNat v).toNat = v % 256 := by simp
    have hwidth : Nat.pow 256 (n + 1) = 256 * Nat.pow 256 n := Nat.mul_comm _ _
    rw [littleEndian, ofLittleEndian, ih, hlow, hwidth, Nat.mod_mul]

/-- What a field holds, known to writer and reader before any byte is read. -/
inductive Kind where
  | bool
  | byte
  | int
  | long
  deriving DecidableEq, Repr

/-- Bytes a field of this kind takes. -/
def Kind.width : Kind → Nat
  | .bool => 1
  | .byte => 1
  | .int => 4
  | .long => 8

/-- The values a field of this kind can have. -/
@[reducible] def Kind.Value : Kind → Type
  | .bool => Bool
  | .byte => Int8
  | .int => Int32
  | .long => Int64

/-- One value of a request buffer. -/
inductive Field where
  | bool (value : Bool)
  | byte (value : Int8)
  | int (value : Int32)
  | long (value : Int64)
  deriving DecidableEq, Repr

def Field.kind : Field → Kind
  | .bool _ => .bool
  | .byte _ => .byte
  | .int _ => .int
  | .long _ => .long

/-- The field of a kind with a given value. -/
def Kind.field : (k : Kind) → k.Value → Field
  | .bool, value => .bool value
  | .byte, value => .byte value
  | .int, value => .int value
  | .long, value => .long value

/-- The wire form. A truth value is one byte, `1` or `0`. -/
def Field.encode : Field → List UInt8
  | .bool value => [if value then 1 else 0]
  | .byte value => littleEndian 1 value.toUInt8.toNat
  | .int value => littleEndian 4 value.toUInt32.toNat
  | .long value => littleEndian 8 value.toUInt64.toNat

@[simp] theorem Field.length_encode (f : Field) : f.encode.length = f.kind.width := by
  cases f <;> simp [Field.encode, Field.kind, Kind.width]

/-- The value of `k.width` bytes. Every byte other than `0` reads as `true`. -/
def Kind.decode (k : Kind) (bytes : List UInt8) : k.Value :=
  match k with
  | .bool => ofLittleEndian bytes != 0
  | .byte => (UInt8.ofNat (ofLittleEndian bytes)).toInt8
  | .int => (UInt32.ofNat (ofLittleEndian bytes)).toInt32
  | .long => (UInt64.ofNat (ofLittleEndian bytes)).toInt64

/-- Decoding undoes encoding. -/
theorem Field.decode_encode (f : Field) : f.kind.field (f.kind.decode f.encode) = f := by
  cases f with
  | bool value => cases value <;> rfl
  | byte value =>
    have h := value.toUInt8.toNat_lt
    simp [Field.kind, Field.encode, Kind.decode, Kind.field, ofLittleEndian_littleEndian,
      Nat.mod_eq_of_lt h]
  | int value =>
    have h := value.toUInt32.toNat_lt
    simp [Field.kind, Field.encode, Kind.decode, Kind.field, ofLittleEndian_littleEndian,
      Nat.mod_eq_of_lt h]
  | long value =>
    have h := value.toUInt64.toNat_lt
    simp [Field.kind, Field.encode, Kind.decode, Kind.field, ofLittleEndian_littleEndian,
      Nat.mod_eq_of_lt h]

end GridBridge.Codec
