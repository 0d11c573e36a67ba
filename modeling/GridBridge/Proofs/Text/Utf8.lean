import GridBridge.Text.Utf8
import Mathlib.Data.List.Basic

/-!
# Text: bytes read as text

What a text is encoded as is read as that text (`lossy_toUTF8`). Bytes that are no text are read
piece by piece, and a byte below `0x80` is a piece of its own wherever it stands: reading can stop
in front of it and start again behind it (`pieces_append`), and its character is read from no other
byte (`mem_pieces`).
-/

namespace GridBridge.Text

/-! ## Bytes of a text -/

/-- The loop reads off what is behind its index. -/
theorem toList_loop (bytes : ByteArray) (i : Nat) (front : List UInt8) :
    ByteArray.toList.loop bytes i front = front.reverse ++ bytes.data.toList.drop i := by
  fun_induction ByteArray.toList.loop bytes i front with
  | case1 i front hinside ih =>
    have hinside' : i < bytes.data.toList.length := by simpa using hinside
    have hhere : bytes.get! i = bytes.data.toList[i] := by
      simp [ByteArray.get!, getElem!_pos bytes.data i hinside]
    rw [ih, hhere, List.drop_eq_getElem_cons hinside', List.reverse_cons, List.append_assoc]
    rfl
  | case2 i front houtside =>
    have houtside' : bytes.data.toList.length ≤ i := by simpa using houtside
    rw [List.drop_eq_nil_of_le houtside', List.append_nil]

/-- The bytes of an array in order. -/
theorem toList_eq (bytes : ByteArray) : bytes.toList = bytes.data.toList := by
  rw [ByteArray.toList, toList_loop]
  rfl

/-- Bytes that are listed and put together again are the same. -/
theorem toByteArray_toList (bytes : ByteArray) : bytes.toList.toByteArray = bytes := by
  rw [toList_eq, ByteArray.ext_iff, List.data_toByteArray]

/-- The bytes of a text are those of its characters. -/
theorem toUTF8_toList (text : String) :
    text.toUTF8.toList = text.toList.flatMap String.utf8EncodeChar := by
  rw [toList_eq, String.toUTF8_eq_toByteArray, ← String.utf8Encode_toList, List.utf8Encode,
    List.data_toByteArray]

/-- The bytes of a text encode it, and no other bytes do. -/
theorem fromUTF8?_eq_some_iff (bytes : List UInt8) (text : String) :
    String.fromUTF8? bytes.toByteArray = some text ↔ bytes = text.toUTF8.toList := by
  constructor
  · intro hread
    unfold String.fromUTF8? at hread
    split at hread
    · obtain rfl := Option.some.inj hread
      simp [toList_eq, String.fromUTF8]
    · cases hread
  · rintro rfl
    rw [toByteArray_toList]
    simp [String.fromUTF8?, String.fromUTF8, text.isValidUTF8]

/-! ## One piece -/

/-- Whether `b` can be the second byte of a character that starts with `lead`. -/
def seconds (lead b : UInt8) : Bool := (secondRange lead).1 ≤ b && b ≤ (secondRange lead).2

/-- How long a character is, told by the number of its first byte. -/
theorem sequenceLength_eq (lead : UInt8) :
    sequenceLength lead =
      if lead.toNat < 0x80 then 1 else if lead.toNat < 0xC2 then 0
      else if lead.toNat < 0xE0 then 2 else if lead.toNat < 0xF0 then 3
      else if lead.toNat < 0xF5 then 4 else 0 := by
  simp only [sequenceLength, UInt8.lt_iff_toNat_lt]
  rfl

/-- What may stand second, told by numbers: `E0` and `F0` bound it from below, `ED` and `F4` from above.
-/
theorem seconds_iff (lead b : UInt8) :
    seconds lead b = true ↔
      (if lead.toNat = 0xE0 then 0xA0 else if lead.toNat = 0xF0 then 0x90 else 0x80) ≤ b.toNat ∧
        b.toNat ≤ if lead.toNat = 0xED then 0x9F else if lead.toNat = 0xF4 then 0x8F else 0xBF := by
  have hfits (low high : UInt8) :
      (low ≤ b && b ≤ high) = true ↔ low.toNat ≤ b.toNat ∧ b.toNat ≤ high.toNat := by
    simp [UInt8.le_iff_toNat_le]
  have hsame (code : UInt8) : (lead == code) = true ↔ lead.toNat = code.toNat := by
    rw [beq_iff_eq, UInt8.toNat_inj]
  simp only [seconds, hfits, secondRange, hsame, UInt8.reduceToNat]
  -- four leading bytes narrow the second one, the others do not
  by_cases hfirst : lead.toNat = 0xE0
  · simp [hfirst]
  by_cases hsecond : lead.toNat = 0xED
  · simp [hsecond]
  by_cases hthird : lead.toNat = 0xF0
  · simp [hthird]
  by_cases hfourth : lead.toNat = 0xF4
  · simp [hfourth]
  simp [hfirst, hsecond, hthird, hfourth]

/-- What may stand third and fourth, told by numbers. -/
theorem isContinuation_iff (b : UInt8) :
    isContinuation b = true ↔ 0x80 ≤ b.toNat ∧ b.toNat ≤ 0xBF := by
  simp only [isContinuation, Bool.and_eq_true, decide_eq_true_eq, UInt8.le_iff_toNat_le]
  rfl

variable {lead b c d : UInt8}

/-- A character of one byte. -/
theorem firstPiece_one (hlength : sequenceLength lead = 1) (rest : List UInt8) :
    firstPiece lead rest = .char (Char.ofNat lead.toNat) := by
  simp only [firstPiece, hlength]

/-- A character of two bytes. -/
theorem firstPiece_two (hlength : sequenceLength lead = 2) (hsecond : seconds lead b = true)
    (rest : List UInt8) :
    firstPiece lead (b :: rest) = .char (Char.ofNat (lead.toNat % 32 * 64 + payload b)) := by
  unfold seconds at hsecond
  simp only [firstPiece, hlength, hsecond, if_true]

/-- A character of three bytes. -/
theorem firstPiece_three (hlength : sequenceLength lead = 3) (hsecond : seconds lead b = true)
    (hthird : isContinuation c = true) (rest : List UInt8) :
    firstPiece lead (b :: c :: rest) =
      .char (Char.ofNat ((lead.toNat % 16 * 64 + payload b) * 64 + payload c)) := by
  unfold seconds at hsecond
  simp only [firstPiece, hlength, hsecond, hthird, Bool.not_true, Bool.false_eq_true, if_false]

/-- A character of four bytes. -/
theorem firstPiece_four (hlength : sequenceLength lead = 4) (hsecond : seconds lead b = true)
    (hthird : isContinuation c = true) (hfourth : isContinuation d = true) (rest : List UInt8) :
    firstPiece lead (b :: c :: d :: rest) =
      .char (Char.ofNat
        (((lead.toNat % 8 * 64 + payload b) * 64 + payload c) * 64 + payload d)) := by
  unfold seconds at hsecond
  simp only [firstPiece, hlength, hsecond, hthird, hfourth, Bool.not_true, Bool.false_eq_true, if_false]

/-- What a character is encoded as is read as that character. -/
theorem firstPiece_encode (c : Char) {lead : UInt8} {more : List UInt8}
    (h : String.utf8EncodeChar c = lead :: more) (rest : List UInt8) :
    firstPiece lead (more ++ rest) = .char c := by
  have hvalid : c.toNat < 0xD800 ∨ 0xDFFF < c.toNat ∧ c.toNat < 0x110000 := c.valid
  have hread : Char.ofNat c.val.toNat = c := c.ofNat_toNat
  unfold Char.toNat at hvalid
  unfold String.utf8EncodeChar at h
  dsimp only at h
  generalize c.val.toNat = v at h hvalid hread
  have hbyte (n : Nat) (hsmall : n < 256) : (UInt8.ofNat n).toNat = n := UInt8.toNat_ofNat_of_lt hsmall
  have hcont (n : Nat) : isContinuation (UInt8.ofNat (n % 64 + 128)) = true := by
    rw [isContinuation_iff, hbyte _ (by omega)]
    omega
  have hload (n : Nat) : payload (UInt8.ofNat (n % 64 + 128)) = n % 64 := by
    rw [payload, hbyte _ (by omega)]
    omega
  -- one case for each length: the bytes pass the checks, and their parts make up the number again
  split at h
  · obtain ⟨rfl, rfl⟩ := List.cons.inj h
    have hleadEq := hbyte v (by omega)
    rw [firstPiece_one (by rw [sequenceLength_eq]; grind), hleadEq, hread]
  · split at h
    · obtain ⟨rfl, rfl⟩ := List.cons.inj h
      have hleadEq := hbyte (v / 64 % 32 + 192) (by omega)
      have hsecondEq := hbyte (v % 64 + 128) (by omega)
      have hnumber : (v / 64 % 32 + 192) % 32 * 64 + v % 64 = v := by omega
      rw [List.singleton_append, firstPiece_two (by rw [sequenceLength_eq]; grind)
        (by rw [seconds_iff]; grind), hload, hleadEq, hnumber, hread]
    · split at h
      · obtain ⟨rfl, rfl⟩ := List.cons.inj h
        have hleadEq := hbyte (v / 4096 % 16 + 224) (by omega)
        have hsecondEq := hbyte (v / 64 % 64 + 128) (by omega)
        have hnumber : ((v / 4096 % 16 + 224) % 16 * 64 + v / 64 % 64) * 64 + v % 64 = v := by omega
        rw [List.cons_append, List.singleton_append,
          firstPiece_three (by rw [sequenceLength_eq]; grind) (by rw [seconds_iff]; grind) (hcont _),
          hload, hload, hleadEq, hnumber, hread]
      · obtain ⟨rfl, rfl⟩ := List.cons.inj h
        have hleadEq := hbyte (v / 262144 % 8 + 240) (by omega)
        have hsecondEq := hbyte (v / 4096 % 64 + 128) (by omega)
        have hnumber : (((v / 262144 % 8 + 240) % 8 * 64 + v / 4096 % 64) * 64 + v / 64 % 64) * 64 +
            v % 64 = v := by omega
        rw [List.cons_append, List.cons_append, List.singleton_append,
          firstPiece_four (by rw [sequenceLength_eq]; grind) (by rw [seconds_iff]; grind) (hcont _)
            (hcont _), hload, hload, hload, hleadEq, hnumber, hread]

/-- The number of a character that there is. -/
theorem val_ofNat {n : Nat} (hvalid : n < 0xD800 ∨ 0xDFFF < n ∧ n < 0x110000) :
    (Char.ofNat n).val.toNat = n := by
  have hinside : n.isValidChar := hvalid
  rw [Char.ofNat, dif_pos hinside]
  rfl

/-- A byte is told by its number. -/
theorem ofNat_eq {n : Nat} {b : UInt8} (h : n = b.toNat) : UInt8.ofNat n = b := by
  rw [h, UInt8.ofNat_toNat]

/-- What the length of a sequence says about its first byte. -/
theorem lead_of_sequenceLength {n : Nat} (h : sequenceLength lead = n) :
    (n = 1 → lead.toNat < 0x80) ∧ (n = 2 → 0xC2 ≤ lead.toNat ∧ lead.toNat < 0xE0) ∧
      (n = 3 → 0xE0 ≤ lead.toNat ∧ lead.toNat < 0xF0) ∧
      (n = 4 → 0xF0 ≤ lead.toNat ∧ lead.toNat < 0xF5) := by
  rw [sequenceLength_eq] at h
  grind

/-- One byte that was read is what its character is encoded as. -/
theorem encode_one (hlength : sequenceLength lead = 1) :
    String.utf8EncodeChar (Char.ofNat lead.toNat) = [lead] := by
  have hfirst := (lead_of_sequenceLength hlength).1 rfl
  have hnumber := val_ofNat (n := lead.toNat) (by omega)
  unfold String.utf8EncodeChar
  simp only [hnumber]
  rw [if_pos (by omega), ofNat_eq rfl]

/-- So are two bytes. -/
theorem encode_two (hlength : sequenceLength lead = 2) (hsecond : seconds lead b = true) :
    String.utf8EncodeChar (Char.ofNat (lead.toNat % 32 * 64 + payload b)) = [lead, b] := by
  have hfirst := (lead_of_sequenceLength hlength).2.1 rfl
  rw [seconds_iff] at hsecond
  unfold payload
  -- the first byte is `C2` or above, so the number needs two bytes, and it is far below the surrogates
  have hnumber := val_ofNat (n := lead.toNat % 32 * 64 + b.toNat % 64) (by omega)
  unfold String.utf8EncodeChar
  simp only [hnumber]
  have hlow : 0x80 ≤ b.toNat ∧ b.toNat ≤ 0xBF := by grind
  rw [if_neg (by omega), if_pos (by omega), ofNat_eq (b := lead) (by omega),
    ofNat_eq (b := b) (by omega)]

/-- So are three bytes. -/
theorem encode_three (hlength : sequenceLength lead = 3) (hsecond : seconds lead b = true)
    (hthird : isContinuation c = true) :
    String.utf8EncodeChar
      (Char.ofNat ((lead.toNat % 16 * 64 + payload b) * 64 + payload c)) = [lead, b, c] := by
  have hfirst := (lead_of_sequenceLength hlength).2.2.1 rfl
  rw [seconds_iff] at hsecond
  rw [isContinuation_iff] at hthird
  have hlow : 0x80 ≤ b.toNat ∧ b.toNat ≤ 0xBF := by grind
  -- the bounds on the second byte keep the number from needing fewer bytes, and out of the surrogates
  have habove : lead.toNat = 0xE0 → 0xA0 ≤ b.toNat := by grind
  have hunder : lead.toNat = 0xED → b.toNat ≤ 0x9F := by grind
  unfold payload
  have hnumber := val_ofNat
    (n := (lead.toNat % 16 * 64 + b.toNat % 64) * 64 + c.toNat % 64) (by omega)
  unfold String.utf8EncodeChar
  simp only [hnumber]
  rw [if_neg (by omega), if_neg (by omega), if_pos (by omega), ofNat_eq (b := lead) (by omega),
    ofNat_eq (b := b) (by omega), ofNat_eq (b := c) (by omega)]

/-- So are four bytes. -/
theorem encode_four (hlength : sequenceLength lead = 4) (hsecond : seconds lead b = true)
    (hthird : isContinuation c = true) (hfourth : isContinuation d = true) :
    String.utf8EncodeChar (Char.ofNat
      (((lead.toNat % 8 * 64 + payload b) * 64 + payload c) * 64 + payload d)) =
      [lead, b, c, d] := by
  have hfirst := (lead_of_sequenceLength hlength).2.2.2 rfl
  rw [seconds_iff] at hsecond
  rw [isContinuation_iff] at hthird hfourth
  have hlow : 0x80 ≤ b.toNat ∧ b.toNat ≤ 0xBF := by grind
  -- the bounds on the second byte keep the number from needing fewer bytes, and below `110000`
  have habove : lead.toNat = 0xF0 → 0x90 ≤ b.toNat := by grind
  have hunder : lead.toNat = 0xF4 → b.toNat ≤ 0x8F := by grind
  unfold payload
  have hnumber := val_ofNat
    (n := ((lead.toNat % 8 * 64 + b.toNat % 64) * 64 + c.toNat % 64) * 64 + d.toNat % 64) (by omega)
  unfold String.utf8EncodeChar
  simp only [hnumber]
  rw [if_neg (by omega), if_neg (by omega), if_neg (by omega), ofNat_eq (b := lead) (by omega),
    ofNat_eq (b := b) (by omega), ofNat_eq (b := c) (by omega), ofNat_eq (b := d) (by omega)]

/-- What a character was read from is what it is encoded as. -/
theorem encode_firstPiece {rest : List UInt8} {c : Char} (h : firstPiece lead rest = .char c) :
    String.utf8EncodeChar c <+: lead :: rest := by
  unfold firstPiece at h
  dsimp only at h
  -- a character comes only of a sequence of full length that has passed the checks
  split at h
  case h_1 hlength =>
    cases h
    rw [encode_one hlength]
    simp
  case h_2 hlength =>
    split at h
    · cases h
      rw [encode_two hlength ‹_›]
      simp
    · cases h
  case h_3 hlength =>
    split at h
    · cases h
    · split at h
      · cases h
      · rename_i hsecond hthird
        cases h
        rw [encode_three hlength (by simpa [seconds] using hsecond) (by simpa using hthird)]
        simp
  case h_4 =>
    split at h <;> cases h
  case h_5 hlength =>
    split at h
    · cases h
    · split at h
      · cases h
      · split at h
        · cases h
        · rename_i hsecond hthird hfourth
          cases h
          rw [encode_four hlength (by simpa [seconds] using hsecond) (by simpa using hthird)
            (by simpa using hfourth)]
          simp
  case h_6 =>
    split at h
    · cases h
    · split at h <;> cases h
  case h_7 =>
    split at h <;> cases h
  case h_8 => cases h

/-- A byte below `0x80` ends whatever is read in front of it. -/
theorem firstPiece_before {s : UInt8} (hascii : s.toNat < 0x80) (rest behind : List UInt8) :
    firstPiece lead (rest ++ s :: behind) = firstPiece lead rest := by
  have hsecond : ((secondRange lead).1 ≤ s && s ≤ (secondRange lead).2) = false := by
    rw [← Bool.not_eq_true]
    show ¬ seconds lead s = true
    rw [seconds_iff]
    grind
  have hlater : isContinuation s = false := by
    rw [← Bool.not_eq_true, isContinuation_iff]
    omega
  unfold firstPiece
  generalize sequenceLength lead = n
  -- up to three bytes are looked at, and where they are too few the next one fails its check
  rcases n with _ | _ | _ | _ | _ | n
  · rfl
  · rfl
  · cases rest <;> simp [hsecond]
  · rcases rest with _ | ⟨x, _ | ⟨y, rest⟩⟩
    · cases behind <;> simp [hsecond]
    · simp only [List.cons_append, List.nil_append, hlater]
      grind
    · simp
  · rcases rest with _ | ⟨x, _ | ⟨y, _ | ⟨z, rest⟩⟩⟩
    · rcases behind with _ | ⟨b, _ | ⟨c, behind⟩⟩ <;> simp [hsecond]
    · cases behind <;> simp only [List.cons_append, List.nil_append, hlater] <;> grind
    · simp [hlater]
    · simp
  · rfl

/-- A piece is read from bytes that are there. -/
theorem length_firstPiece_le (lead : UInt8) (rest : List UInt8) :
    (firstPiece lead rest).length ≤ rest.length + 1 := by
  cases hpiece : firstPiece lead rest with
  -- the encoding of the character stands in front
  | char c => simpa [Piece.length] using (encode_firstPiece hpiece).length_le
  | broken bytes =>
    unfold firstPiece at hpiece
    dsimp only at hpiece
    grind [Piece.length]

/-! ## All pieces -/

/-- The first piece, and what is read behind it. -/
theorem pieces_cons (lead : UInt8) (rest : List UInt8) :
    pieces (lead :: rest) =
      firstPiece lead rest :: pieces (rest.drop ((firstPiece lead rest).length - 1)) := by
  rw [pieces]

/-- The pieces of a text are its characters. -/
theorem pieces_encode (chars : List Char) :
    pieces (chars.flatMap String.utf8EncodeChar) = chars.map .char := by
  -- along the characters, the first of which takes its bytes off the front
  induction chars with
  | nil => rw [List.flatMap_nil, pieces, List.map_nil]
  | cons c chars ih =>
    rw [List.flatMap_cons, List.map_cons]
    have hsize := String.length_utf8EncodeChar c
    cases hencoded : String.utf8EncodeChar c with
    | nil =>
      rw [hencoded] at hsize
      exact absurd hsize.symm (Nat.ne_of_gt c.utf8Size_pos)
    | cons lead more =>
      rw [hencoded, List.length_cons] at hsize
      rw [List.cons_append, pieces_cons, firstPiece_encode c hencoded]
      have hbehind : (more ++ chars.flatMap String.utf8EncodeChar).drop ((Piece.char c).length - 1) =
          chars.flatMap String.utf8EncodeChar := by
        rw [Piece.length, ← hsize, Nat.add_sub_cancel, List.drop_left]
      rw [hbehind, ih]

/-- **What a text is encoded as is read as that text.** -/
theorem lossy_toUTF8 (text : String) : lossy text.toUTF8.toList = text := by
  rw [lossy, toUTF8_toList, pieces_encode, List.map_map]
  simp [Function.comp_def]

/-- A byte below `0x80` separates what is read in front of it from what is read behind it. -/
theorem pieces_append {s : UInt8} (hascii : s.toNat < 0x80) (front behind : List UInt8) :
    pieces (front ++ s :: behind) =
      pieces front ++ .char (Char.ofNat s.toNat) :: pieces behind := by
  induction front using pieces.induct with
  | case1 =>
    have hone : sequenceLength s = 1 := by
      rw [sequenceLength_eq, if_pos hascii]
    have hsize : (Char.ofNat s.toNat).utf8Size = 1 := by
      rw [← String.length_utf8EncodeChar, encode_one hone]
      rfl
    rw [List.nil_append, pieces_cons, firstPiece_one hone, Piece.length, hsize, pieces]
    rfl
  | case2 lead rest piece ih =>
    have hinside := length_firstPiece_le lead rest
    rw [List.cons_append, pieces_cons, pieces_cons, firstPiece_before hascii,
      List.drop_append_of_le_length (by omega), List.cons_append]
    exact congrArg _ ih

/-- A character below `0x80` is read from its own byte. -/
theorem mem_pieces {s : UInt8} (hascii : s.toNat < 0x80) {bytes : List UInt8}
    (h : .char (Char.ofNat s.toNat) ∈ pieces bytes) : s ∈ bytes := by
  have hencoded : String.utf8EncodeChar (Char.ofNat s.toNat) = [s] :=
    encode_one (by rw [sequenceLength_eq, if_pos hascii])
  induction bytes using pieces.induct with
  | case1 => simp [pieces] at h
  | case2 lead rest piece ih =>
    rw [pieces_cons, List.mem_cons] at h
    obtain hhere | hlater := h
    · have hread := encode_firstPiece hhere.symm
      rw [hencoded] at hread
      exact hread.subset (List.mem_singleton_self s)
    · exact List.mem_cons_of_mem _ (List.mem_of_mem_drop (ih hlater))

end GridBridge.Text
