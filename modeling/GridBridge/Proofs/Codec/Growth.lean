import GridBridge.Proofs.Codec.RoundTrip

/-!
# Codec: how a block grows

A write either finds room or has the block moved to one of at least twice the size. `Regrows` is told
by the size alone, and `requests` are the sizes asked for along some fields. `Grown` carries the two
bounds that every write keeps: the block doubles with each request, and is never larger than twice
what is written, once it has grown at all. The same sizes are computed in words of 64 bits by
`Words`, where sums and products wrap around; as long as the sizes that were granted are those of an
object in memory, nothing does. **`Writer.growth`** is all of it for any fields.
-/

namespace GridBridge.Codec

namespace Writer

/-! ## One write -/

/-- A write moves by the width of the field. -/
theorem position_write (w : Writer) (f : Field) :
    (w.write f).position = w.position + f.kind.width := by
  rw [← Field.length_encode]
  rfl

/-- The block afterwards is the one that room was found in. -/
theorem allocated_write (w : Writer) (f : Field) :
    (w.write f).allocated = (w.room f.kind.width).size := by
  rw [← Field.length_encode]
  rfl

/-- The size that is asked for is the larger of twice the size and what is needed. -/
theorem grownSize_eq (allocated needed : Nat) :
    grownSize allocated needed = max (2 * allocated) needed := by
  unfold grownSize
  split <;> omega

/-- What fits goes into the block that is there. -/
theorem room_of_fits {w : Writer} {count : Nat} (hfits : w.position + count ≤ w.allocated) :
    w.room count = w.block :=
  if_pos hfits

/-- What does not fit moves the block to one of twice the size, or of what is needed. -/
theorem room_of_short {w : Writer} {count : Nat} (hshort : w.allocated < w.position + count) :
    w.room count = w.block.realloc (max (2 * w.allocated) (w.position + count)) := by
  rw [← grownSize_eq]
  exact if_neg (Nat.not_le.mpr hshort)

/-- A write makes the block grow. -/
def Regrows (w : Writer) (f : Field) : Prop := (w.write f).allocated ≠ w.allocated

instance (w : Writer) (f : Field) : Decidable (w.Regrows f) := inferInstanceAs (Decidable (_ ≠ _))

/-- So the size after a write that does not fit is that. -/
theorem allocated_write_of_short {w : Writer} {f : Field}
    (hshort : w.allocated < w.position + f.kind.width) :
    (w.write f).allocated = max (2 * w.allocated) (w.position + f.kind.width) := by
  rw [allocated_write, room_of_short hshort]
  rfl

/-- A block grows exactly if the field does not fit. -/
theorem regrows_iff (w : Writer) (f : Field) :
    w.Regrows f ↔ w.allocated < w.position + f.kind.width := by
  constructor
  · intro hregrows
    -- what fits leaves the block as it is
    by_contra hfits
    apply hregrows
    rw [allocated_write, room_of_fits (Nat.not_lt.mp hfits)]
    rfl
  · intro hshort
    rw [Regrows, allocated_write_of_short hshort]
    omega

/-- One write never makes a block smaller. -/
theorem allocated_le_write (w : Writer) (f : Field) : w.allocated ≤ (w.write f).allocated := by
  by_cases hshort : w.allocated < w.position + f.kind.width
  · rw [allocated_write_of_short hshort]
    omega
  · rw [allocated_write, room_of_fits (Nat.not_lt.mp hshort)]
    rfl

/-! ## The sizes asked for -/

/-- The sizes that blocks are asked for while some fields are written, in order. -/
def requests (w : Writer) : List Field → List Nat
  | [] => []
  | f :: rest =>
    if w.Regrows f then (w.write f).allocated :: (w.write f).requests rest
    else (w.write f).requests rest

@[simp] theorem requests_nil (w : Writer) : w.requests [] = [] := rfl

/-- A field that makes the block grow is one request. -/
theorem requests_of_regrows {w : Writer} {f : Field} (hregrows : w.Regrows f) (rest : List Field) :
    w.requests (f :: rest) = (w.write f).allocated :: (w.write f).requests rest :=
  if_pos hregrows

/-- A field that fits is none. -/
theorem requests_of_kept {w : Writer} {f : Field} (hkept : ¬ w.Regrows f) (rest : List Field) :
    w.requests (f :: rest) = (w.write f).requests rest :=
  if_neg hkept

/-- A block that does not grow has the size that it had. -/
theorem allocated_of_kept {w : Writer} {f : Field} (hkept : ¬ w.Regrows f) :
    (w.write f).allocated = w.allocated :=
  not_not.mp hkept

@[simp] theorem writeAll_nil (w : Writer) : w.writeAll [] = w := rfl

@[simp] theorem writeAll_cons (w : Writer) (f : Field) (rest : List Field) :
    w.writeAll (f :: rest) = (w.write f).writeAll rest := rfl

/-- Fields are written one after the other, so lists of them are. -/
theorem writeAll_append (w : Writer) (front behind : List Field) :
    w.writeAll (front ++ behind) = (w.writeAll front).writeAll behind :=
  List.foldl_append

/-- The block there is at the end was asked for last, if one was asked for. -/
theorem allocated_writeAll_mem (w : Writer) (fields : List Field) :
    (w.writeAll fields).allocated ∈ w.allocated :: w.requests fields := by
  induction fields generalizing w with
  | nil => exact List.mem_cons_self
  | cons f rest ih =>
    have hlater := ih (w.write f)
    rw [writeAll_cons]
    by_cases hregrows : w.Regrows f
    · rw [requests_of_regrows hregrows]
      exact List.mem_cons_of_mem _ hlater
    · rw [requests_of_kept hregrows]
      rwa [allocated_of_kept hregrows] at hlater

/-- A block never shrinks. -/
theorem allocated_le_writeAll (w : Writer) (fields : List Field) :
    w.allocated ≤ (w.writeAll fields).allocated := by
  induction fields generalizing w with
  | nil => exact Nat.le_refl _
  | cons f rest ih => exact (w.allocated_le_write f).trans (ih (w.write f))

/-- Sizes that are asked for along a list are asked for along each part of it. -/
theorem requests_append (w : Writer) (front behind : List Field) :
    w.requests (front ++ behind) = w.requests front ++ (w.writeAll front).requests behind := by
  induction front generalizing w with
  | nil => rfl
  | cons f rest ih =>
    rw [List.cons_append, requests, requests, ih]
    split <;> rfl

/-- A field that does not fit is one request more. -/
theorem requests_snoc_of_short {w : Writer} {fields : List Field} {next : Field}
    (hshort : (w.writeAll fields).allocated < (w.writeAll fields).position + next.kind.width) :
    w.requests (fields ++ [next]) = w.requests fields ++ [max (2 * (w.writeAll fields).allocated)
      ((w.writeAll fields).position + next.kind.width)] := by
  rw [requests_append, requests_of_regrows ((regrows_iff _ next).mpr hshort),
    allocated_write_of_short hshort]
  rfl

/-- What fits does not make the block grow. -/
theorem kept_of_fits {w : Writer} {f : Field} (hfits : w.position + f.kind.width ≤ w.allocated) :
    ¬ w.Regrows f :=
  fun hgrows => Nat.not_lt.mpr hfits ((w.regrows_iff f).mp hgrows)

/-- A field that fits is no request. -/
theorem requests_snoc_of_fits {w : Writer} {fields : List Field} {next : Field}
    (hfits : (w.writeAll fields).position + next.kind.width ≤ (w.writeAll fields).allocated) :
    w.requests (fields ++ [next]) = w.requests fields := by
  rw [requests_append, requests_of_kept (kept_of_fits hfits)]
  exact List.append_nil _

/-! ## The bounds -/

/-- A block that had `capacity` bytes has been asked for so many times since. -/
structure Grown (capacity : Nat) (w : Writer) (times : Nat) : Prop where
  doubled : capacity * 2 ^ times ≤ w.allocated
  bounded : w.allocated ≤ max capacity (2 * w.position)

/-- A new block has not been asked for again. -/
theorem grown_ofCapacity (capacity : Nat) (hpositive : 0 < capacity) :
    Grown capacity (ofCapacity capacity hpositive) 0 where
  doubled := by simp [ofCapacity, allocated, Block.alloc]
  bounded := le_max_left ..

/-- One write. A block that grows has twice the size, or else just what is written. -/
theorem Grown.write {capacity : Nat} {w : Writer} {times : Nat} (h : Grown capacity w times)
    (f : Field) :
    Grown capacity (w.write f) (times + (w.requests [f]).length) := by
  have hdoubled := h.doubled
  have hbounded := h.bounded
  have hinside : w.position ≤ w.allocated := w.inside
  -- a block that stays is bounded as before, since the position only grew
  by_cases hregrows : w.Regrows f
  · have hshort := (w.regrows_iff f).mp hregrows
    rw [requests_of_regrows hregrows, requests_nil]
    refine ⟨?_, ?_⟩
    · rw [List.length_singleton, pow_succ, ← Nat.mul_assoc, allocated_write_of_short hshort]
      omega
    · rw [position_write, allocated_write_of_short hshort]
      omega
  · rw [requests_of_kept hregrows]
    refine ⟨?_, ?_⟩
    · rw [allocated_of_kept hregrows]
      exact hdoubled
    · rw [position_write, allocated_of_kept hregrows]
      omega

/-- Any number of writes, by induction on the fields. -/
theorem Grown.writeAll {capacity : Nat} {w : Writer} {times : Nat} (h : Grown capacity w times)
    (fields : List Field) :
    Grown capacity (w.writeAll fields) (times + (w.requests fields).length) := by
  induction fields generalizing w times with
  | nil => exact h
  | cons f rest ih =>
    have hlater := ih (h.write f)
    rwa [Nat.add_assoc, ← List.length_append, ← writeAll_nil (w.write f), ← writeAll_cons,
      ← requests_append] at hlater

/-- Each request at least doubles the block, and the block is at most twice what is written. -/
theorem Grown.times_le_log {capacity : Nat} {w : Writer} {times : Nat}
    (h : Grown capacity w times) (hpositive : 0 < capacity) :
    times ≤ Nat.log 2 (2 * w.position / capacity) := by
  cases times with
  | zero => exact Nat.zero_le _
  | succ times =>
    have hdoubled := h.doubled
    have hbounded := h.bounded
    -- after a request the block is larger than at first, so twice the position bounds it
    have hlarger : capacity < capacity * 2 ^ (times + 1) :=
      lt_mul_of_one_lt_right hpositive (Nat.one_lt_two_pow (Nat.succ_ne_zero times))
    apply Nat.le_log_of_pow_le Nat.one_lt_two
    rw [Nat.le_div_iff_mul_le hpositive, Nat.mul_comm]
    omega

end Writer

/-! ## In words of the machine -/

/-- The largest size of an object in memory. An allocator grants no more. -/
def maxObject : Nat := 2 ^ 63 - 1

/-- Position and size of a block, each in a word of the machine. -/
structure Words where
  position : UInt64
  allocated : UInt64

/-- Makes room for some bytes and moves behind them. Sums and products wrap around. -/
def Words.write (m : Words) (count : UInt64) : Words :=
  let needed := m.position + count
  let doubled := m.allocated * 2
  { position := needed
    allocated :=
      if needed > m.allocated then if needed > doubled then needed else doubled
      else m.allocated }

def Words.writeAll (m : Words) (fields : List Field) : Words :=
  fields.foldl (fun m f => m.write (UInt64.ofNat f.kind.width)) m

/-- The words hold the numbers of a writer. -/
structure Words.Agrees (m : Words) (w : Writer) : Prop where
  position : m.position.toNat = w.position
  allocated : m.allocated.toNat = w.allocated

namespace Writer

/-- No field is wider than a word. -/
theorem width_le (k : Kind) : k.width ≤ 8 := by cases k <;> decide

/-- While the block is an object in memory, neither sum nor product leaves a word. -/
theorem no_overflow {w : Writer} (hgranted : w.allocated ≤ maxObject) (f : Field) :
    w.position + f.kind.width < 2 ^ 64 ∧ w.allocated * 2 < 2 ^ 64 := by
  have hinside : w.position ≤ w.allocated := w.inside
  have hnarrow := width_le f.kind
  unfold maxObject at hgranted
  omega

end Writer

/-- A new block has its capacity in a word. -/
theorem Words.agrees_ofCapacity {capacity : Nat} (hpositive : 0 < capacity)
    (hgranted : capacity ≤ maxObject) :
    Words.Agrees ⟨0, UInt64.ofNat capacity⟩ (Writer.ofCapacity capacity hpositive) where
  position := rfl
  allocated := by
    rw [UInt64.toNat_ofNat']
    unfold maxObject at hgranted
    exact Nat.mod_eq_of_lt (by omega)

/-- A write in words is the write in numbers, as long as the block is an object in memory. -/
theorem Words.Agrees.write {m : Words} {w : Writer} (h : m.Agrees w)
    (hgranted : w.allocated ≤ maxObject) (f : Field) :
    (m.write (UInt64.ofNat f.kind.width)).Agrees (w.write f) := by
  obtain ⟨hsum, hproduct⟩ := Writer.no_overflow hgranted f
  have hneeded : (m.position + UInt64.ofNat f.kind.width).toNat = w.position + f.kind.width := by
    rw [UInt64.toNat_add, UInt64.toNat_ofNat', Nat.add_mod_mod, h.position, Nat.mod_eq_of_lt hsum]
  have hdoubled : (m.allocated * 2).toNat = w.allocated * 2 := by
    rw [UInt64.toNat_mul, h.allocated]
    exact Nat.mod_eq_of_lt hproduct
  refine ⟨hneeded.trans (w.position_write f).symm, ?_⟩
  simp only [Words.write, gt_iff_lt, UInt64.lt_iff_toNat_lt, hneeded, hdoubled, h.allocated]
  -- the sums did not overflow, so the comparison comes out the same
  by_cases hshort : w.allocated < w.position + f.kind.width
  · rw [if_pos hshort, Writer.allocated_write_of_short hshort]
    split
    · omega
    · omega
  · rw [if_neg hshort, h.allocated, Writer.allocated_write, Writer.room_of_fits (Nat.not_lt.mp hshort)]
    rfl

/-- Along any fields. Every size but the last was granted, so no write computes with a larger one. -/
theorem Words.Agrees.writeAll {m : Words} {w : Writer} (h : m.Agrees w) (fields : List Field)
    (next : Field) (hgranted : ∀ size ∈ w.allocated :: w.requests fields, size ≤ maxObject) :
    (m.writeAll (fields ++ [next])).Agrees (w.writeAll (fields ++ [next])) := by
  induction fields generalizing m w with
  | nil => exact h.write (hgranted _ List.mem_cons_self) next
  | cons f rest ih =>
    apply ih (h.write (hgranted _ List.mem_cons_self) f)
    intro size hasked
    apply hgranted
    -- the sizes along the rest are among those that were granted
    by_cases hregrows : w.Regrows f
    · rw [Writer.requests_of_regrows hregrows]
      exact List.mem_cons_of_mem _ hasked
    · rw [Writer.requests_of_kept hregrows]
      rwa [Writer.allocated_of_kept hregrows] at hasked

/-! ## Any fields -/

/-- Whatever the first capacity is and whatever was written. The position is inside the block, and
the block is at most twice what is written and has doubled with each request, so that there were few
of them. The next field makes the block grow if and only if it does not fit, to twice the size or to
what is needed, and otherwise goes into the block as it is; no block shrinks. If the sizes granted so
far are those of objects in memory, then nothing in the next write leaves a word of the machine, and
words compute the numbers above. -/
theorem Writer.growth (capacity : Nat) (hpositive : 0 < capacity) (fields : List Field)
    (next : Field) :
    ∃ start, Writer.new capacity = .ok start ∧ start.allocated = capacity ∧ start.position = 0 ∧
      let w := start.writeAll fields
      let needed := w.position + next.encode.length
      let times := (start.requests fields).length
      (w.position = widths fields ∧ w.position ≤ w.allocated ∧
        w.allocated ≤ max capacity (2 * w.position) ∧
        capacity * 2 ^ times ≤ w.allocated ∧
        times ≤ Nat.log 2 (2 * w.position / capacity)) ∧
      (∀ front behind, front ++ behind = fields → (start.writeAll front).allocated ≤ w.allocated) ∧
      (w.allocated < needed →
        w.room next.encode.length = w.block.realloc (max (2 * w.allocated) needed) ∧
        (w.write next).allocated = max (2 * w.allocated) needed ∧
        start.requests (fields ++ [next]) =
          start.requests fields ++ [max (2 * w.allocated) needed]) ∧
      (needed ≤ w.allocated →
        w.room next.encode.length = w.block ∧ (w.write next).allocated = w.allocated ∧
        start.requests (fields ++ [next]) = start.requests fields) ∧
      ((∀ size ∈ capacity :: start.requests fields, size ≤ maxObject) →
        needed < 2 ^ 64 ∧ w.allocated * 2 < 2 ^ 64 ∧
        Words.Agrees (Words.writeAll ⟨0, UInt64.ofNat capacity⟩ (fields ++ [next]))
          (start.writeAll (fields ++ [next]))) := by
  let start := ofCapacity capacity hpositive
  let w := start.writeAll fields
  have hexactly := (exactly_ofCapacity capacity hpositive).writeAll fields
  have hgrown := (grown_ofCapacity capacity hpositive).writeAll fields
  rw [Nat.zero_add] at hgrown
  refine ⟨start, dif_pos hpositive, rfl, rfl, ?_, ?_, ?_, ?_, ?_⟩
  -- position and size
  · exact ⟨hexactly.position, w.inside, hgrown.bounded, hgrown.doubled, hgrown.times_le_log hpositive⟩
  -- no block shrinks
  · intro front behind hsplit
    rw [← hsplit, writeAll_append]
    exact allocated_le_writeAll _ _
  · intro hshort
    rw [Field.length_encode] at hshort ⊢
    exact ⟨room_of_short hshort, allocated_write_of_short hshort, requests_snoc_of_short hshort⟩
  · intro hfits
    rw [Field.length_encode] at hfits ⊢
    exact ⟨room_of_fits hfits, allocated_of_kept (kept_of_fits hfits), requests_snoc_of_fits hfits⟩
  · intro hgranted
    have hnow : w.allocated ≤ maxObject := hgranted _ (start.allocated_writeAll_mem fields)
    have hfirst : capacity ≤ maxObject := hgranted _ List.mem_cons_self
    obtain ⟨hsum, hproduct⟩ := no_overflow hnow next
    rw [Field.length_encode]
    exact ⟨hsum, hproduct, (Words.agrees_ofCapacity hpositive hfirst).writeAll fields next hgranted⟩

/-- A block of one byte, which is asked for again by each of two fields. -/
theorem Writer.growth_of_one_byte :
    ∃ start, Writer.new 1 = .ok start ∧ start.requests [.int (-2), .long 7] = [4, 12] ∧
      Words.Agrees (Words.writeAll ⟨0, 1⟩ [.int (-2), .long 7])
        (start.writeAll [.int (-2), .long 7]) := by
  obtain ⟨start, hmade, -, -, -, -, -, -, hwords⟩ :=
    Writer.growth 1 (by decide) [.int (-2)] (.long 7)
  obtain rfl : Writer.ofCapacity 1 (by decide) = start := Except.ok.inj hmade
  have hgranted : ∀ size ∈ 1 :: (ofCapacity 1 (by decide)).requests [.int (-2)],
      size ≤ maxObject := by decide
  exact ⟨_, hmade, by decide, (hwords hgranted).2.2⟩

end GridBridge.Codec
