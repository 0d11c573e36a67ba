/-!
# Text: bytes that may not be text

File names and environment values are bytes. `pieces` splits them into characters and the byte
sequences that encode none: an ill-formed sequence is as long as its longest start of a well-formed
one, and at least one byte.
-/

namespace GridBridge.Text

/-- One step of reading bytes as UTF-8. -/
inductive Piece where
  | char (c : Char)
  | broken (bytes : List UInt8)
  deriving Repr

/-- Whether a byte continues a character. -/
def isContinuation (b : UInt8) : Bool := 0x80 ≤ b && b ≤ 0xBF

/-- The range of the second byte of a character that starts with `lead`. -/
def secondRange (lead : UInt8) : UInt8 × UInt8 :=
  if lead == 0xE0 then (0xA0, 0xBF)
  else if lead == 0xED then (0x80, 0x9F)
  else if lead == 0xF0 then (0x90, 0xBF)
  else if lead == 0xF4 then (0x80, 0x8F)
  else (0x80, 0xBF)

/-- Bytes of the character that starts with `lead`; `0` if none does. -/
def sequenceLength (lead : UInt8) : Nat :=
  if lead < 0x80 then 1
  else if lead < 0xC2 then 0
  else if lead < 0xE0 then 2
  else if lead < 0xF0 then 3
  else if lead < 0xF5 then 4
  else 0

/-- Six payload bits of a continuation byte. -/
def payload (b : UInt8) : Nat := b.toNat % 64

/-- The longest start of a character's bytes, and the character once it is complete. -/
def firstPiece (lead : UInt8) (rest : List UInt8) : Piece :=
  let fits (b : UInt8) : Bool := (secondRange lead).1 ≤ b && b ≤ (secondRange lead).2
  match sequenceLength lead, rest with
  | 1, _ => .char (Char.ofNat lead.toNat)
  | 2, b :: _ =>
    if fits b then .char (Char.ofNat (lead.toNat % 32 * 64 + payload b)) else .broken [lead]
  | 3, b :: c :: _ =>
    if !fits b then .broken [lead]
    else if !isContinuation c then .broken [lead, b]
    else .char (Char.ofNat ((lead.toNat % 16 * 64 + payload b) * 64 + payload c))
  | 3, [b] => if fits b then .broken [lead, b] else .broken [lead]
  | 4, b :: c :: d :: _ =>
    if !fits b then .broken [lead]
    else if !isContinuation c then .broken [lead, b]
    else if !isContinuation d then .broken [lead, b, c]
    else .char (Char.ofNat
      (((lead.toNat % 8 * 64 + payload b) * 64 + payload c) * 64 + payload d))
  | 4, [b, c] =>
    if !fits b then .broken [lead]
    else if !isContinuation c then .broken [lead, b]
    else .broken [lead, b, c]
  | 4, [b] => if fits b then .broken [lead, b] else .broken [lead]
  | _, _ => .broken [lead]

/-- Bytes a piece was read from. -/
def Piece.length : Piece → Nat
  | .char c => c.utf8Size
  | .broken bytes => bytes.length

/-- All pieces, in order. -/
def pieces : List UInt8 → List Piece
  | [] => []
  | lead :: rest =>
    let piece := firstPiece lead rest
    piece :: pieces (rest.drop (piece.length - 1))
termination_by bytes => bytes.length
decreasing_by simp only [List.length_drop, List.length_cons]; omega

/-- The bytes as text, with the replacement character for each broken sequence. -/
def lossy (bytes : List UInt8) : String :=
  String.ofList ((pieces bytes).map fun
    | .char c => c
    | .broken _ => '\uFFFD')

end GridBridge.Text
