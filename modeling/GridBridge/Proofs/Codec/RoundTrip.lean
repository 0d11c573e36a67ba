import GridBridge.Codec.Reader
import Mathlib

/-!
# Codec: what is written is what is read

The wire form of a request is fixed here without the writer: every field gives the bytes of its
value in two's complement, lowest first, and a request is its fields end to end. `Exactly` says of
a writer that the known bytes of its block are the wire form of some fields. It holds of a fresh
writer, one `write` keeps it whether or not the block has to grow, and so it holds after any number
of them. A reader that stands before the wire form of some fields reads those fields.
-/

namespace GridBridge.Codec

/-! ## The wire form -/

/-- The `n` lowest bytes of an integer in two's complement, lowest first. -/
def twosComplement (n : Nat) (v : Int) : List UInt8 :=
  (List.range n).map fun i => UInt8.ofNat (v / 256 ^ i % 256).toNat

/-- The number a field stands for. -/
def Field.number : Field → Int
  | .bool value => if value then 1 else 0
  | .byte value => value.toInt
  | .int value => value.toInt
  | .long value => value.toInt

/-- The bytes of a field on the wire. -/
def Field.wire (f : Field) : List UInt8 := twosComplement f.kind.width f.number

/-- Bytes that a list of fields takes. -/
def widths (fields : List Field) : Nat := (fields.map fun f => f.kind.width).sum

@[simp] theorem length_twosComplement (n : Nat) (v : Int) : (twosComplement n v).length = n := by
  simp [twosComplement]

@[simp] theorem length_wire (fields : List Field) :
    (fields.flatMap Field.wire).length = widths fields := by
  simp [widths, List.length_flatMap, Field.wire]

theorem twosComplement_succ (n : Nat) (v : Int) :
    twosComplement (n + 1) v = UInt8.ofNat (v % 256).toNat :: twosComplement n (v / 256) := by
  have htail (i : Nat) : v / 256 ^ (i + 1) = v / 256 / 256 ^ i := by
    rw [pow_succ', Int.ediv_ediv_of_nonneg (by decide)]
  simp [twosComplement, List.range_succ_eq_map, Function.comp_def, htail]

/-- The remainder by a wider number, one byte at a time. -/
theorem emod_byte_mul (v m : Int) (h : 0 < m) :
    v % (256 * m) = v % 256 + 256 * (v / 256 % m) := by
  have hstep := Int.emod_add_mul_ediv (v / 256) m
  have hlow := Int.emod_nonneg (v / 256) (show m ≠ 0 by omega)
  have hhigh := Int.emod_lt_of_pos (v / 256) h
  refine ((Int.ediv_emod_unique (q := v / 256 / m) (by omega)).2 ⟨?_, ?_, ?_⟩).2
  · rw [Int.mul_assoc]
    omega
  · omega
  · omega

/-- Unsigned bits and signed value have the same bytes where they agree modulo the width. -/
theorem littleEndian_eq (n : Nat) (v : Int) (bits : Nat) (h : (bits : Int) = v % 256 ^ n) :
    littleEndian n bits = twosComplement n v := by
  induction n generalizing v bits with
  | zero => rfl
  | succ n ih =>
    have hpositive : (0 : Int) < 256 ^ n := Int.pow_pos (by decide)
    rw [pow_succ', emod_byte_mul v _ hpositive] at h
    have hhigh : ((bits / 256 : Nat) : Int) = v / 256 % 256 ^ n := by omega
    have hlow : bits % 256 = (v % 256).toNat := by omega
    have hfirst : UInt8.ofNat bits = UInt8.ofNat (v % 256).toNat := by
      rw [← hlow]
      exact (UInt8.ofNat_mod_size ..).symm
    rw [littleEndian, twosComplement_succ, ih _ _ hhigh, hfirst]

/-- Unsigned and signed reading of a word agree modulo its width. -/
theorem toNat_eq_toInt_emod {n : Nat} (x : BitVec n) : (x.toNat : Int) = x.toInt % 2 ^ n := by
  have hsmall : (x.toNat : Int) < 2 ^ n := by exact_mod_cast x.isLt
  have hsign := x.toInt_eq_toNat_bmod
  rw [hsign, show ((2 : Int) ^ n) = ((2 ^ n : Nat) : Int) by simp, Int.bmod_emod]
  rw [Int.emod_eq_of_lt (by omega) (by exact_mod_cast hsmall)]

/-- The writer's encoding is the wire form. -/
theorem Field.encode_eq_wire (f : Field) : f.encode = f.wire := by
  cases f with
  | bool value => cases value <;> rfl
  | byte value => exact littleEndian_eq 1 _ _ (toNat_eq_toInt_emod value.toBitVec)
  | int value => exact littleEndian_eq 4 _ _ (toNat_eq_toInt_emod value.toBitVec)
  | long value => exact littleEndian_eq 8 _ _ (toNat_eq_toInt_emod value.toBitVec)

/-! ## Blocks -/

namespace Block

/-- A cell set in the array of cells, and the others as they were. -/
theorem join_setCell (cells : Array (Option UInt8)) (offset i : Nat) (byte : UInt8) :
    ((setCell cells offset byte)[i]?).join = if i = offset then some byte else (cells[i]?).join := by
  unfold setCell
  split
  · rename_i hinside
    rw [Array.getElem?_set]
    grind
  · rename_i houtside
    grind

theorem size_setCell (cells : Array (Option UInt8)) (offset : Nat) (byte : UInt8) :
    (setCell cells offset byte).size = max cells.size (offset + 1) := by
  unfold setCell
  split
  · simp only [Array.size_set]
    omega
  · simp only [Array.size_push, Array.size_append, Array.size_replicate]
    omega

theorem join_setCells (bytes : List UInt8) (cells : Array (Option UInt8)) (offset i : Nat) :
    ((setCells cells offset bytes)[i]?).join =
      if offset ≤ i ∧ i < offset + bytes.length then bytes[i - offset]? else (cells[i]?).join := by
  induction bytes generalizing cells offset with
  | nil => rw [setCells, if_neg (by simp)]
  | cons byte rest ih =>
    rw [setCells, ih, join_setCell, List.length_cons]
    by_cases hfirst : i = offset
    · subst hfirst
      rw [if_neg (by omega), if_pos rfl, if_pos (by omega), Nat.sub_self, List.getElem?_cons_zero]
    · by_cases hlater : offset + 1 ≤ i ∧ i < offset + 1 + rest.length
      · rw [if_pos hlater, if_pos (by omega), show i - offset = i - (offset + 1) + 1 by omega,
          List.getElem?_cons_succ]
      · rw [if_neg hlater, if_neg hfirst, if_neg (by omega)]

theorem size_setCells (bytes : List UInt8) (cells : Array (Option UInt8)) (offset bound : Nat)
    (hkept : cells.size ≤ bound) (hinside : offset + bytes.length ≤ bound) :
    (setCells cells offset bytes).size ≤ bound := by
  induction bytes generalizing cells offset with
  | nil => exact hkept
  | cons byte rest ih =>
    rw [List.length_cons] at hinside
    apply ih
    · rw [size_setCell]
      omega
    · omega

/-- A store sets its own cells and no other. -/
theorem cell_store (b : Block) (offset : Nat) (bytes : List UInt8)
    (h : offset + bytes.length ≤ b.size) (i : Nat) :
    (b.store offset bytes h).cell i =
      if offset ≤ i ∧ i < offset + bytes.length then bytes[i - offset]? else b.cell i := by
  simp only [cell, store, join_setCells]
  grind

/-- Growing a block keeps what was stored in it. -/
theorem cell_realloc (b : Block) (size i : Nat) (hgrows : b.size ≤ size) (hinside : i < b.size) :
    (b.realloc size).cell i = b.cell i := by
  have hwider : i < size := by omega
  simp only [cell, realloc, if_pos hinside, if_pos hwider, Nat.min_eq_left hgrows]
  rw [Array.take_eq_extract, Array.getElem?_extract]
  grind

/-- A block whose first cells are known loads to what they hold. -/
theorem load_eq (b : Block) (bytes : List UInt8) (hinside : bytes.length ≤ b.size)
    (hknown : ∀ i, i < bytes.length → b.cell i = bytes[i]?) : b.load bytes.length = bytes := by
  have hstored (i : Nat) (hsmall : i < bytes.length) : b.cells[i]? = some (some bytes[i]) := by
    have hhere := hknown i hsmall
    rw [cell, if_pos (by omega), List.getElem?_eq_getElem hsmall] at hhere
    exact Option.join_eq_some_iff.mp hhere
  have htaken : (b.cells.take bytes.length).toList = bytes.map some := by
    apply List.ext_getElem?
    intro i
    rw [Array.getElem?_toList, Array.take_eq_extract, List.getElem?_map]
    by_cases hsmall : i < bytes.length
    · have hhere := hstored i hsmall
      grind
    · grind
  rw [load, Nat.min_eq_left hinside, htaken]
  simp

end Block

/-! ## The writer -/

namespace Writer

/-- The known bytes of the block are the wire form of these fields, and no cell lies outside. -/
structure Exactly (w : Writer) (fields : List Field) : Prop where
  position : w.position = widths fields
  known : ∀ i, i < w.position → w.block.cell i = (fields.flatMap Field.wire)[i]?
  contained : w.block.cells.size ≤ w.block.size

theorem exactly_ofCapacity (capacity : Nat) (h : 0 < capacity) :
    (ofCapacity capacity h).Exactly [] where
  position := rfl
  known := fun i hsmall => absurd hsmall (Nat.not_lt_zero i)
  contained := Nat.zero_le _

/-- Room for more bytes is made without touching those that are there. -/
theorem cell_room (w : Writer) (count i : Nat) (hwritten : i < w.position) :
    (w.room count).cell i = w.block.cell i := by
  have hinside := w.inside
  unfold room
  split
  · rfl
  · rename_i hfull
    apply Block.cell_realloc
    · unfold grownSize
      split <;> omega
    · omega

theorem contained_room (w : Writer) (count : Nat) (h : w.block.cells.size ≤ w.block.size) :
    (w.room count).cells.size ≤ (w.room count).size := by
  unfold room
  split
  · exact h
  · simp only [Block.realloc, Array.take_eq_extract, Array.size_extract]
    omega

/-- One more field. -/
theorem Exactly.write {w : Writer} {fields : List Field} (h : w.Exactly fields) (f : Field) :
    (w.write f).Exactly (fields ++ [f]) where
  position := by
    have := h.position
    simp [Writer.write, widths, this]
  known := by
    intro i hsmall
    have hlength := length_wire fields
    rw [← h.position] at hlength
    rw [List.flatMap_append, List.flatMap_singleton]
    simp only [Writer.write, f.encode_eq_wire] at hsmall ⊢
    rw [Block.cell_store]
    by_cases hold : i < w.position
    · rw [if_neg (by omega), w.cell_room _ i hold, h.known i hold,
        List.getElem?_append_left (by omega)]
    · rw [if_pos (by omega), List.getElem?_append_right (by omega), hlength]
  contained := Block.size_setCells _ _ _ _ (w.contained_room _ h.contained) (w.le_size_room _)

/-- Any number of fields. -/
theorem Exactly.writeAll {w : Writer} {fields : List Field} (h : w.Exactly fields)
    (more : List Field) : (w.writeAll more).Exactly (fields ++ more) := by
  induction more generalizing w fields with
  | nil => simpa [Writer.writeAll] using h
  | cons f rest ih => simpa [Writer.writeAll] using ih (h.write f)

theorem Exactly.bytes {w : Writer} {fields : List Field} (h : w.Exactly fields) :
    w.bytes = fields.flatMap Field.wire := by
  have hinside := w.inside
  have hposition := h.position
  have hloaded := w.block.load_eq (fields.flatMap Field.wire)
  rw [length_wire, ← h.position] at hloaded
  exact hloaded hinside h.known

end Writer

/-! ## The reader -/

namespace Reader

theorem peek_eq (r : Reader) (count : Nat) :
    r.peek count = (r.data.toList.drop r.position).take count := by
  simp [peek, List.extract_eq_take_drop]

/-- A reader that stands before the wire form of a field reads that field and stands behind it. -/
theorem read_wire (f : Field) (behind : List UInt8) (r : Reader)
    (h : r.data.toList.drop r.position = f.wire ++ behind) :
    ∃ value next, r.read f.kind = (.ok value, next) ∧ f.kind.field value = f ∧
      next.data.toList.drop next.position = behind := by
  have hlength : f.wire.length = f.kind.width := length_twosComplement ..
  have henough : r.position + f.kind.width ≤ r.data.size := by
    have := congrArg List.length h
    rw [List.length_drop, Array.length_toList, List.length_append] at this
    have := r.inside
    omega
  refine ⟨_, _, dif_pos henough, ?_, ?_⟩
  · rw [peek_eq, h, ← hlength, List.take_left, ← f.encode_eq_wire, f.decode_encode]
  · rw [← List.drop_drop, h, ← hlength, List.drop_left]

/-- A reader that stands before the wire form of some fields reads them and stands at the end. -/
theorem readAll_wire (fields : List Field) (r : Reader)
    (h : r.data.toList.drop r.position = fields.flatMap Field.wire) :
    ∃ last, r.readAll (fields.map Field.kind) = (.ok fields, last) ∧ last.remaining = 0 := by
  induction fields generalizing r with
  | nil =>
    refine ⟨r, rfl, ?_⟩
    simpa [remaining] using congrArg List.length h
  | cons f rest ih =>
    rw [List.flatMap_cons] at h
    obtain ⟨value, next, hfirst, hsame, hbehind⟩ := read_wire f _ r h
    obtain ⟨last, hothers, hempty⟩ := ih next hbehind
    refine ⟨last, ?_, hempty⟩
    rw [List.map_cons, readAll, hfirst]
    simp only [hothers, hsame, Except.map]

/-- Bytes behind the declared length are never looked at. -/
theorem ofAddress_append (bytes behind : List UInt8) :
    ofAddress (some (bytes ++ behind)) bytes.length = .ok (ofBytes bytes) := by
  unfold ofAddress
  split
  · rename_i hempty
    rw [List.length_eq_zero_iff.mp hempty]
  · simp

end Reader

/-! ## Round trip -/

/-- Whatever the first capacity is and wherever the block has to grow: no store leaves the block,
after every prefix the position is the sum of the widths so far and the written bytes are the wire
form of the prefix, and reading the same kinds back, from the writer or from the address of its
data with whatever lies `behind` it, gives the fields written and nothing more to read. -/
theorem Writer.round_trip (capacity : Nat) (hpositive : 0 < capacity) (fields : List Field) :
    ∃ start, Writer.new capacity = .ok start ∧ start.allocated = capacity ∧
      (∀ before f after, before ++ f :: after = fields →
        let w := start.writeAll before
        w.position + f.encode.length ≤ (w.room f.encode.length).size ∧
        (w.write f).block.cells.size ≤ (w.write f).allocated) ∧
      (∀ before after, before ++ after = fields →
        let w := start.writeAll before
        w.position = widths before ∧ w.position ≤ w.allocated ∧
        w.bytes = before.flatMap Field.wire ∧
        ∀ i, i < w.position → w.block.cell i = w.bytes[i]?) ∧
      let w := start.writeAll fields
      (∃ last, (Reader.ofWriter w).readAll (fields.map Field.kind) = (.ok fields, last) ∧
        last.remaining = 0) ∧
      ∀ behind, ∃ r last, Reader.ofAddress (some (w.bytes ++ behind)) w.position = .ok r ∧
        r.readAll (fields.map Field.kind) = (.ok fields, last) ∧ last.remaining = 0 := by
  -- one invariant serves every moment of the run: the block holds exactly what was written so far
  have hwritten (before : List Field) : ((ofCapacity capacity hpositive).writeAll before).Exactly
      before := (exactly_ofCapacity capacity hpositive).writeAll before
  refine ⟨ofCapacity capacity hpositive, by rw [new, dif_pos hpositive], rfl, ?_, ?_, ?_, ?_⟩
  · intro before f after hsplit
    exact ⟨le_size_room _ _, ((hwritten before).write f).contained⟩
  · intro before after hsplit
    have hall := hwritten before
    refine ⟨hall.position, Writer.inside _, hall.bytes, ?_⟩
    rw [hall.bytes]
    exact hall.known
  · apply Reader.readAll_wire
    simp [Reader.ofWriter, Reader.ofBytes, Reader.ofArray, (hwritten fields).bytes]
  -- from the raw address the length cuts off whatever lies behind, so the reader sees the same bytes
  · intro behind
    have hall := hwritten fields
    obtain ⟨last, hvalues, hempty⟩ := Reader.readAll_wire fields
      (Reader.ofBytes (fields.flatMap Field.wire)) (by simp [Reader.ofBytes, Reader.ofArray])
    refine ⟨_, last, ?_, hvalues, hempty⟩
    rw [hall.bytes, hall.position, ← length_wire, Reader.ofAddress_append]

/-- A block of one byte, which grows at both fields. -/
theorem Writer.round_trip_of_one_byte :
    ∃ start, Writer.new 1 = .ok start ∧
      (start.writeAll [.int (-2), .bool true]).bytes = [254, 255, 255, 255, 1] ∧
      ∃ last, (Reader.ofWriter (start.writeAll [.int (-2), .bool true])).readAll [.int, .bool] =
        (.ok [.int (-2), .bool true], last) ∧ last.remaining = 0 := by
  obtain ⟨start, hmade, -, -, hprefixes, hback, -⟩ :=
    Writer.round_trip 1 (by decide) [.int (-2), .bool true]
  have hbytes := (hprefixes [.int (-2), .bool true] [] rfl).2.2.1
  exact ⟨start, hmade, hbytes.trans (by decide), hback⟩

end GridBridge.Codec
