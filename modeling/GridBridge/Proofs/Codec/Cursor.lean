import GridBridge.Proofs.Codec.RoundTrip

/-!
# Codec: what a reader does over any bytes

Reads are tried one after the other over bytes that nobody has to have written, and some of them do
not fit (`attempts`). The value of a read is said here without the reader: `signed` adds up the
bytes at their weights and takes the sum in two's complement. One read does as `read_eq_ok` and
`read_eq_error` say, so the cursor stays inside the declared length all along.

Fields that were read are written back as the bytes that were read, but that a byte read as a truth
value comes back as `0` or `1` (`rewritten`). `Reader.reads_and_rewrites` puts both directions
together.
-/

namespace GridBridge.Codec

/-! ## The value of some bytes -/

/-- The sum of the bytes, each at its weight, lowest first. -/
def unsigned (bytes : List UInt8) : Nat := (bytes.mapIdx fun i b => b.toNat * 256 ^ i).sum

/-- The value in two's complement. -/
def signed (bytes : List UInt8) : Int := (unsigned bytes : Int).bmod (256 ^ bytes.length)

/-- The field that bytes of its width stand for. A truth value is whether its byte is set. -/
def Field.StandsFor (f : Field) (bytes : List UInt8) : Prop :=
  match f with
  | .bool value => value = true ↔ bytes ≠ [0]
  | f => f.number = signed bytes

theorem ofLittleEndian_eq_unsigned (bytes : List UInt8) :
    ofLittleEndian bytes = unsigned bytes := by
  induction bytes with
  | nil => rfl
  | cons b rest ih =>
    have hweights : (fun (i : Nat) (b : UInt8) => b.toNat * 256 ^ (i + 1)) =
        fun i b => 256 * (b.toNat * 256 ^ i) := by
      funext i b
      rw [pow_succ]
      ring
    have hscaled : (rest.mapIdx fun i b => 256 * (b.toNat * 256 ^ i)).sum = 256 * unsigned rest := by
      rw [unsigned, List.mapIdx_eq_zipIdx_map, List.mapIdx_eq_zipIdx_map, ← List.sum_map_mul_left]
    rw [ofLittleEndian, ih, ← hscaled, unsigned, List.mapIdx_cons, List.sum_cons, hweights]
    simp

theorem ofLittleEndian_lt (bytes : List UInt8) : ofLittleEndian bytes < 256 ^ bytes.length := by
  induction bytes with
  | nil => simp [ofLittleEndian]
  | cons b rest ih =>
    have hlow := b.toNat_lt
    rw [ofLittleEndian, List.length_cons, pow_succ]
    omega

/-- Bytes are the bytes of their number. -/
theorem littleEndian_ofLittleEndian (bytes : List UInt8) :
    littleEndian bytes.length (ofLittleEndian bytes) = bytes := by
  induction bytes with
  | nil => rfl
  | cons b rest ih =>
    have hlow := b.toNat_lt
    have hhigh : (b.toNat + 256 * ofLittleEndian rest) / 256 = ofLittleEndian rest := by omega
    have hfirst : UInt8.ofNat (b.toNat + 256 * ofLittleEndian rest) = b := by
      rw [← UInt8.toNat_inj, UInt8.toNat_ofNat']
      omega
    rw [List.length_cons, ofLittleEndian, littleEndian, hhigh, ih, hfirst]

/-- Decoding gives the field that the bytes stand for. -/
theorem Kind.standsFor_decode (k : Kind) (bytes : List UInt8) (h : bytes.length = k.width) :
    (k.field (k.decode bytes)).StandsFor bytes := by
  have hsum := ofLittleEndian_eq_unsigned bytes
  -- a single byte is set or not, and the others are numbers of their width
  cases k with
  | bool =>
    obtain ⟨b, rfl⟩ := List.length_eq_one_iff.mp h
    simp [Kind.field, Kind.decode, Field.StandsFor, ofLittleEndian, ← UInt8.toNat_inj]
  | byte =>
    show (UInt8.ofNat (ofLittleEndian bytes)).toInt8.toInt = signed bytes
    rw [signed, h, ← hsum]
    exact BitVec.toInt_ofNat (n := 8) _
  | int =>
    show (UInt32.ofNat (ofLittleEndian bytes)).toInt32.toInt = signed bytes
    rw [signed, h, ← hsum]
    exact BitVec.toInt_ofNat (n := 32) _
  | long =>
    show (UInt64.ofNat (ofLittleEndian bytes)).toInt64.toInt = signed bytes
    rw [signed, h, ← hsum]
    exact BitVec.toInt_ofNat (n := 64) _

theorem Kind.kind_field (k : Kind) (value : k.Value) : (k.field value).kind = k := by
  cases k <;> rfl

/-! ## Writing back -/

/-- What a byte is written back as. -/
def rewritten (truth : Bool) (b : UInt8) : UInt8 := if truth && b != 0 then 1 else b

/-- For each byte that fields take, whether it is a truth value. -/
def truths (fields : List Field) : List Bool :=
  fields.flatMap fun f => List.replicate f.kind.width (f.kind == .bool)

/-- Bytes that are no truth values stay as they are. -/
theorem rewritten_false : rewritten false = id := rfl

/-- The wire form of a field that was read is its bytes, written back. -/
theorem Kind.wire_decode (k : Kind) (bytes : List UInt8) (h : bytes.length = k.width) :
    (k.field (k.decode bytes)).wire = bytes.map (rewritten (k == .bool)) := by
  have hback := littleEndian_ofLittleEndian bytes
  have hsmall := ofLittleEndian_lt bytes
  rw [h] at hback hsmall
  rw [← Field.encode_eq_wire]
  cases k with
  | bool =>
    obtain ⟨b, rfl⟩ := List.length_eq_one_iff.mp h
    -- any byte but zero is read as true and written as one
    by_cases hzero : b = 0
    · subst hzero
      rfl
    · have hset : b.toNat ≠ 0 := fun hnone => hzero (UInt8.toNat_inj.mp hnone)
      simp [Kind.field, Kind.decode, Field.encode, ofLittleEndian, rewritten, hzero, hset]
  | byte =>
    -- so many bytes make up no larger number
    have hwhole : ofLittleEndian bytes % 256 = ofLittleEndian bytes := Nat.mod_eq_of_lt hsmall
    rw [show (Kind.byte == Kind.bool) = false from rfl, rewritten_false, List.map_id]
    simpa [Kind.field, Kind.decode, Field.encode, Kind.width, hwhole] using hback
  | int =>
    have hwhole : ofLittleEndian bytes % 4294967296 = ofLittleEndian bytes := Nat.mod_eq_of_lt hsmall
    rw [show (Kind.int == Kind.bool) = false from rfl, rewritten_false, List.map_id]
    simpa [Kind.field, Kind.decode, Field.encode, Kind.width, hwhole] using hback
  | long =>
    have hwhole : ofLittleEndian bytes % 18446744073709551616 = ofLittleEndian bytes :=
      Nat.mod_eq_of_lt hsmall
    rw [show (Kind.long == Kind.bool) = false from rfl, rewritten_false, List.map_id]
    simpa [Kind.field, Kind.decode, Field.encode, Kind.width, hwhole] using hback

theorem length_truths (fields : List Field) : (truths fields).length = widths fields := by
  simp [truths, widths, List.length_flatMap]

theorem zipWith_rewritten_replicate (truth : Bool) (bytes : List UInt8) (n : Nat)
    (h : bytes.length = n) :
    List.zipWith rewritten (List.replicate n truth) bytes = bytes.map (rewritten truth) := by
  subst h
  induction bytes with
  | nil => rfl
  | cons b rest ih => simp [List.replicate_succ, ih]

/-- Bytes come back as they were exactly if no truth value was another byte than `0` or `1`. -/
theorem zipWith_rewritten_eq_iff (truth : List Bool) (bytes : List UInt8)
    (h : truth.length = bytes.length) :
    List.zipWith rewritten truth bytes = bytes ↔
      ∀ entry ∈ truth.zip bytes, entry.1 = true → entry.2 = 0 ∨ entry.2 = 1 := by
  induction truth generalizing bytes with
  | nil =>
    obtain rfl := List.length_eq_zero_iff.mp h.symm
    simp
  | cons t rest ih =>
    cases bytes with
    | nil => simp at h
    | cons b bytes =>
      have hsame := ih bytes (by simpa using h)
      -- a byte is rewritten as itself unless it is a truth value of another spelling
      have hfirst : rewritten t b = b ↔ (t = true → b = 0 ∨ b = 1) := by
        unfold rewritten
        by_cases hzero : b = 0 <;> cases t <;> simp [hzero, eq_comm (a := b)]
      rw [List.zipWith_cons_cons, List.cons_eq_cons, hsame, hfirst, List.zip_cons_cons,
        List.forall_mem_cons]

/-! ## One read -/

namespace Reader

/-- A read that fits gives the field that the next bytes stand for, and moves behind them. -/
theorem read_eq_ok (r : Reader) (k : Kind) (hfits : k.width ≤ r.remaining) :
    ∃ value next, r.read k = (.ok value, next) ∧
      (k.field value).StandsFor (r.peek k.width) ∧
      (k.field value).wire = (r.peek k.width).map (rewritten (k == .bool)) ∧
      next.data = r.data ∧ next.position = r.position + k.width := by
  have hinside := r.inside
  have hroom : r.position + k.width ≤ r.data.size := by
    unfold remaining at hfits
    omega
  have hlength : (r.peek k.width).length = k.width := by
    rw [peek_eq, List.length_take, List.length_drop, Array.length_toList]
    omega
  exact ⟨_, _, dif_pos hroom, k.standsFor_decode _ hlength, k.wire_decode _ hlength, rfl, rfl⟩

/-- A read that does not fit is fatal and leaves the reader where it was. -/
theorem read_eq_error (r : Reader) (k : Kind) (hoverruns : r.remaining < k.width) :
    r.read k = (.error (.overrun k.width r.position r.length), r) := by
  have hroom : ¬ r.position + k.width ≤ r.data.size := by
    unfold remaining at hoverruns
    omega
  exact dif_neg hroom

/-! ## Reads in a row -/

/-- Tries reads in a row, the fatal ones included: what came of each, and the reader after them. -/
def attempts (r : Reader) : List Kind → List (Except Misuse Field) × Reader
  | [] => ([], r)
  | k :: kinds =>
    let (outcome, next) := r.read k
    let (outcomes, last) := next.attempts kinds
    (outcome.map k.field :: outcomes, last)

/-- The fields that were read. -/
def fieldsOf (outcomes : List (Except Misuse Field)) : List Field :=
  outcomes.filterMap Except.toOption

/-- The bytes between two places of a reader. -/
def between (r last : Reader) : List UInt8 := (r.data.toList.take last.position).drop r.position

theorem attempts_cons (r : Reader) (k : Kind) (kinds : List Kind) :
    r.attempts (k :: kinds) =
      ((r.read k).1.map k.field :: ((r.read k).2.attempts kinds).1,
        ((r.read k).2.attempts kinds).2) := rfl

/-- A read stays over the same bytes and does not go back. -/
theorem read_moves (r : Reader) (k : Kind) :
    (r.read k).2.data = r.data ∧ r.position ≤ (r.read k).2.position := by
  by_cases hfits : k.width ≤ r.remaining
  · obtain ⟨value, next, hread, _, _, hdata, hposition⟩ := r.read_eq_ok k hfits
    rw [hread]
    exact ⟨hdata, by simp [hposition]⟩
  · rw [r.read_eq_error k (Nat.lt_of_not_le hfits)]
    exact ⟨rfl, Nat.le_refl _⟩

/-- So do reads in a row. -/
theorem attempts_moves (kinds : List Kind) (r : Reader) :
    (r.attempts kinds).2.data = r.data ∧ r.position ≤ (r.attempts kinds).2.position := by
  induction kinds generalizing r with
  | nil => exact ⟨rfl, Nat.le_refl _⟩
  | cons k kinds ih =>
    have hfirst := r.read_moves k
    have hlater := ih (r.read k).2
    rw [attempts_cons]
    exact ⟨hlater.1.trans hfirst.1, Nat.le_trans hfirst.2 hlater.2⟩

/-- A stretch that begins with a read is what was read and the stretch behind it. -/
theorem between_eq_append (r next last : Reader) (width : Nat) (hdata : next.data = r.data)
    (hposition : next.position = r.position + width) (hlater : next.position ≤ last.position) :
    between r last = r.peek width ++ between next last := by
  have hinner : width ≤ last.position - r.position := by omega
  have hfront : (between r last).take width = r.peek width := by
    rw [between, peek_eq, List.drop_take, List.take_take, Nat.min_eq_left hinner]
  have hback : (between r last).drop width = between next last := by
    rw [between, between, List.drop_drop, hdata, hposition]
  rw [← hfront, ← hback, List.take_append_drop]

/-- What was read in a row, and where: the fields take the bytes that the reader has moved over, and
their wire form is these bytes, written back. -/
theorem attempts_wire (kinds : List Kind) (r : Reader) :
    widths (fieldsOf (r.attempts kinds).1) = (between r (r.attempts kinds).2).length ∧
      (fieldsOf (r.attempts kinds).1).flatMap Field.wire =
        List.zipWith rewritten (truths (fieldsOf (r.attempts kinds).1))
          (between r (r.attempts kinds).2) := by
  induction kinds generalizing r with
  | nil => simp [attempts, fieldsOf, between, widths, truths]
  | cons k kinds ih =>
    rw [attempts_cons]
    by_cases hfits : k.width ≤ r.remaining
    -- the bytes are those of this field and those of the later ones
    · obtain ⟨value, next, hread, _, hwire, hdata, hposition⟩ := r.read_eq_ok k hfits
      have hkind := k.kind_field value
      have hwidth : (r.peek k.width).length = k.width := by
        rw [← List.length_map (rewritten (k == .bool)), ← hwire, Field.wire, length_twosComplement,
          hkind]
      obtain ⟨hlength, hlater⟩ := ih next
      have hsplit := between_eq_append r next _ _ hdata hposition (attempts_moves kinds next).2
      have hfields : fieldsOf (Except.map k.field (.ok value) :: (next.attempts kinds).1) =
          k.field value :: fieldsOf (next.attempts kinds).1 := rfl
      rw [hread, hsplit]
      dsimp only
      rw [hfields]
      constructor
      · rw [List.length_append, hwidth, ← hlength]
        simp [widths, hkind]
      · have hhere : List.zipWith rewritten (List.replicate k.width (k == .bool)) (r.peek k.width) =
            (r.peek k.width).map (rewritten (k == .bool)) :=
          zipWith_rewritten_replicate _ _ _ hwidth
        have hmarks : truths (k.field value :: fieldsOf (next.attempts kinds).1) =
            List.replicate k.width (k == .bool) ++ truths (fieldsOf (next.attempts kinds).1) := by
          rw [truths, List.flatMap_cons, hkind, truths]
        rw [List.flatMap_cons, hwire, hlater, hmarks, List.zipWith_append (by simp [hwidth]), hhere]
    -- a read that does not fit gives no field and moves nothing
    · rw [r.read_eq_error k (Nat.lt_of_not_le hfits)]
      exact ih r

/-! ## Reads over any bytes -/

/-- Any reads in a row over any bytes, whatever lies `behind` them, and the fields written back to a
writer of any capacity. Before every read the cursor is inside the declared length. The read succeeds
exactly if its width is left; then it gives the value of the next bytes and moves behind them, and
else it is fatal and moves nothing. Written back, the fields are the bytes that were moved over, but
that a truth value is `0` or `1`, so the bytes are the same exactly if each truth value was one of
these. -/
theorem reads_and_rewrites (bytes behind : List UInt8) (kinds : List Kind) (capacity : Nat)
    (hpositive : 0 < capacity) :
    ∃ r, ofAddress (some (bytes ++ behind)) bytes.length = .ok r ∧
      (∀ written, written.flatMap Field.wire = bytes →
        ofWriter ((Writer.ofCapacity capacity hpositive).writeAll written) = r) ∧
      (∀ before k after, before ++ k :: after = kinds →
        let now := (r.attempts before).2
        now.length = bytes.length ∧ now.position ≤ now.length ∧
        now.position + now.remaining = now.length ∧
        (k.width ≤ now.remaining → ∃ value next, now.read k = (.ok value, next) ∧
          (k.field value).StandsFor ((bytes.drop now.position).take k.width) ∧
          next.length = bytes.length ∧ next.position = now.position + k.width) ∧
        (now.remaining < k.width →
          now.read k = (.error (.overrun k.width now.position bytes.length), now))) ∧
      let fields := fieldsOf (r.attempts kinds).1
      let consumed := bytes.take (r.attempts kinds).2.position
      ∃ start, Writer.new capacity = .ok start ∧
        (start.writeAll fields).bytes = List.zipWith rewritten (truths fields) consumed ∧
        ((start.writeAll fields).bytes = consumed ↔
          ∀ entry ∈ (truths fields).zip consumed, entry.1 = true →
            entry.2 = 0 ∨ entry.2 = 1) := by
  have hexactly (fields : List Field) :=
    (Writer.exactly_ofCapacity capacity hpositive).writeAll fields
  refine ⟨ofBytes bytes, ofAddress_append bytes behind, ?_, ?_, ?_⟩
  · intro written hsame
    rw [ofWriter, (hexactly written).bytes, List.nil_append, hsame]
  · intro before k after _
    have hdata := (attempts_moves before (ofBytes bytes)).1
    -- wherever the reads before have led to, the bytes are the same
    generalize ((ofBytes bytes).attempts before).2 = now at hdata
    have hinside := now.inside
    have hlist : now.data.toList = bytes := congrArg Array.toList hdata
    have hlength : now.length = bytes.length := by
      rw [Reader.length, ← Array.length_toList, hlist]
    refine ⟨hlength, hinside, ?_, ?_, ?_⟩
    · unfold remaining Reader.length
      omega
    · intro hfits
      obtain ⟨value, next, hread, hstands, _, hkept, hmoved⟩ := now.read_eq_ok k hfits
      rw [peek_eq, hlist] at hstands
      refine ⟨value, next, hread, hstands, ?_, hmoved⟩
      rw [← hlength, Reader.length, hkept, Reader.length]
    · intro hoverruns
      rw [← hlength]
      exact now.read_eq_error k hoverruns
  · obtain ⟨hlength, hwire⟩ := attempts_wire kinds (ofBytes bytes)
    -- what was read is what stands before the last position
    have hconsumed : between (ofBytes bytes) ((ofBytes bytes).attempts kinds).2 =
        bytes.take ((ofBytes bytes).attempts kinds).2.position := by
      simp [between, ofBytes, ofArray]
    rw [hconsumed] at hlength hwire
    have hrewrites := (hexactly (fieldsOf ((ofBytes bytes).attempts kinds).1)).bytes.trans hwire
    refine ⟨.ofCapacity capacity hpositive, dif_pos hpositive, hrewrites, ?_⟩
    rw [hrewrites]
    exact zipWith_rewritten_eq_iff _ _ ((length_truths _).trans hlength)

/-- A truth value of `7`, an overrun and a narrower read after it. The truth value is written back as
`1`. -/
theorem reads_and_rewrites_of_seven :
    ∃ r start, ofAddress (some ([7, 254, 255] ++ [1])) 3 = .ok r ∧
      (r.attempts [.bool, .int, .byte]).1 =
        [.ok (.bool true), .error (.overrun 4 1 3), .ok (.byte (-2))] ∧
      Writer.new 1 = .ok start ∧
      (start.writeAll [.bool true, .byte (-2)]).bytes = [1, 254] := by
  obtain ⟨r, hmade, -, -, start, hfresh, hrewrites, -⟩ :=
    reads_and_rewrites [7, 254, 255] [1] [.bool, .int, .byte] 1 (by decide)
  obtain rfl : ofBytes [7, 254, 255] = r := Except.ok.inj hmade
  exact ⟨_, start, hmade, rfl, hfresh, hrewrites⟩

end Reader

end GridBridge.Codec
