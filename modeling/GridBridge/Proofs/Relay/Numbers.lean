import GridBridge.Proofs.Relay.Views

/-!
# Numbers of calls

**`numbers`** are the numbers that a relay holds: those of calls in flight and of calls that a loop waits
for. Issuing a call is the one way for a number to come in; all else only lets numbers go (**`Sheds`**).
So the number that comes next is not held yet (**`Numbered`**), and taking a call back right after it was
begun undoes all but the count (**`Numbered.withdraw_begin`**).
-/

namespace GridBridge.Relay

open Protocol

variable {κ : Type} {r r' r'' : Relay κ} {l : LoopId} {id : CallId} {n : Nat}

/-- Numbers of calls that are in flight or waited for. -/
def numbers (r : Relay κ) : List CallId :=
  r.inFlight.map (·.1) ++ r.loops.flatMap fun entry => entry.2.waiting.map (·.id)

/-- A number is held if its call is in flight or waited for. -/
theorem mem_numbers : id ∈ r.numbers ↔
    (∃ l, (id, l) ∈ r.inFlight) ∨ ∃ entry ∈ r.loops, ∃ w ∈ entry.2.waiting, w.id = id := by
  simp [numbers]

/-! ## Letting numbers go -/

/-- No number has come in, and none was given out. -/
structure Sheds (r r' : Relay κ) : Prop where
  nextCall : r'.nextCall = r.nextCall
  numbers : ∀ id ∈ r'.numbers, id ∈ r.numbers

/-- Nothing has come in. -/
theorem Sheds.refl (r : Relay κ) : r.Sheds r := ⟨rfl, fun _ hmem => hmem⟩

/-- Nor does anything over two steps. -/
theorem Sheds.trans (h : r.Sheds r') (h' : r'.Sheds r'') : r.Sheds r'' :=
  ⟨h'.nextCall.trans h.nextCall, fun id hmem => h.numbers id (h'.numbers id hmem)⟩

/-- What a loop waits for after a change are numbers that were held before. -/
theorem sheds_modifyLoop {f : EventLoop κ → EventLoop κ}
    (hf : ∀ loop, (l, loop) ∈ r.loops → ∀ w ∈ (f loop).waiting, w.id ∈ r.numbers) :
    r.Sheds (r.modifyLoop l f) := by
  refine ⟨rfl, fun id hmem => ?_⟩
  obtain hflying | ⟨_, hchanged, w, hwaits, rfl⟩ := mem_numbers.mp hmem
  · exact mem_numbers.mpr (.inl hflying)
  · obtain ⟨⟨key, loop⟩, hmem, rfl⟩ := List.mem_map.mp hchanged
    dsimp only at hwaits
    split at hwaits
    · rename_i hhere
      exact hf loop (hhere ▸ hmem) w hwaits
    · exact mem_numbers.mpr (.inr ⟨_, hmem, w, hwaits, rfl⟩)

/-- A change that lets a loop wait for nothing new. -/
theorem sheds_modifyLoop_of_ids {f : EventLoop κ → EventLoop κ}
    (hf : ∀ loop, ∀ w ∈ (f loop).waiting, ∃ w' ∈ loop.waiting, w'.id = w.id) :
    r.Sheds (r.modifyLoop l f) :=
  sheds_modifyLoop fun loop hmem w hwaits => mem_numbers.mpr (.inr ⟨_, hmem, hf loop w hwaits⟩)

/-- Taking calls out of the registry lets their numbers go. -/
theorem sheds_inFlight (keep : CallId × LoopId → Bool) :
    r.Sheds { r with inFlight := r.inFlight.filter keep } := by
  refine ⟨rfl, fun id hmem => ?_⟩
  obtain ⟨l, hflying⟩ | hwaits := mem_numbers.mp hmem
  · exact mem_numbers.mpr (.inl ⟨l, List.mem_of_mem_filter hflying⟩)
  · exact mem_numbers.mpr (.inr hwaits)

/-- A new loop waits for nothing. -/
theorem sheds_openLoop (r : Relay κ) : r.Sheds r.openLoop.2 :=
  ⟨rfl, fun _ hmem => hmem⟩

/-- A loop that is dropped lets its numbers go. -/
theorem sheds_dropLoop (r : Relay κ) (l : LoopId) : r.Sheds (r.dropLoop l) := by
  refine ⟨rfl, fun id hmem => ?_⟩
  obtain ⟨l', hflying⟩ | ⟨entry, hmem, hwaits⟩ := mem_numbers.mp hmem
  · exact mem_numbers.mpr (.inl ⟨l', List.mem_of_mem_filter hflying⟩)
  · exact mem_numbers.mpr (.inr ⟨entry, List.mem_of_mem_filter hmem, hwaits⟩)

/-- So does a call that is taken back. -/
theorem sheds_withdraw (r : Relay κ) (l : LoopId) (id : CallId) : r.Sheds (r.withdraw l id) := by
  refine (sheds_inFlight _).trans (sheds_modifyLoop_of_ids fun loop w hwaits => ?_)
  exact ⟨w, (mem_waiting_withdraw.mp hwaits).1, rfl⟩

/-- So does a signal. -/
theorem sheds_signal (r : Relay κ) (id : CallId) (payload : Completion) :
    r.Sheds (r.signal id payload) := by
  cases hknown : (r.take id).1 with
  | none =>
    rw [signal_of_unknown hknown]
    exact .refl r
  | some l =>
    have htake : r.Sheds (r.take id).2 := sheds_inFlight _
    rw [signal_of_known hknown, modifyLoop_modifyLoop, modifyLoop_modifyLoop]
    refine htake.trans (sheds_modifyLoop_of_ids fun loop w hwaits => ?_)
    -- the slot of one call is filled, and its number stays
    obtain ⟨w', hwaits', rfl⟩ := List.mem_map.mp hwaits
    refine ⟨w', hwaits', ?_⟩
    split <;> rfl

/-- So does a delivery. -/
theorem sheds_claimNext? {claimed : Option (κ × Completion)}
    (h : r.claimNext? l = some (id, claimed, r')) : r.Sheds r' := by
  obtain ⟨loop, rest, hfound, _, _, rfl⟩ := claimNext?_eq_some h
  refine sheds_modifyLoop fun _ _ w hwaits => ?_
  obtain ⟨before, after, hsplit, _⟩ := List.lookup_eq_some_iff.mp hfound
  have hmem : (l, loop) ∈ r.loops := by
    rw [hsplit]
    exact List.mem_append_right before List.mem_cons_self
  exact mem_numbers.mpr (.inr ⟨_, hmem, w, (mem_waiting_withdraw.mp hwaits).1, rfl⟩)

/-! ## The next number -/

/-- So many calls were begun, and the numbers that are held are theirs. -/
structure Numbered (n : Nat) (r : Relay κ) : Prop where
  next : r.nextCall = UInt64.ofNat (n + 1)
  known : ∀ id ∈ r.numbers, id.toNat ≤ n

/-- At the beginning no number was given out. -/
theorem numbered_fresh : Numbered 0 ({} : Relay κ) := ⟨rfl, nofun⟩

/-- To let numbers go keeps the count. -/
theorem Numbered.sheds (h : Numbered n r) (hsheds : r.Sheds r') : Numbered n r' :=
  ⟨hsheds.nextCall.trans h.next, fun id hmem => h.known id (hsheds.numbers id hmem)⟩

/-- The number that comes next is not held, while numbers have not come round. -/
theorem Numbered.next_not_mem (h : Numbered n r) (hroom : n + 1 < 2 ^ 64) :
    r.nextCall ∉ r.numbers := by
  intro hmem
  have hknown := h.known _ hmem
  rw [h.next, UInt64.toNat_ofNat', Nat.mod_eq_of_lt hroom] at hknown
  omega

/-- A call that is begun has the next number. -/
theorem Numbered.begin (h : Numbered n r) (hroom : n + 1 < 2 ^ 64) (l : LoopId) (callback : κ) :
    Numbered (n + 1) (r.begin l callback).2 where
  next := by
    show r.nextCall + 1 = _
    rw [h.next]
    exact (UInt64.ofNat_add (n + 1) 1).symm
  known := by
    -- the counter has not wrapped, so the new number is above every older one
    have hnumber : r.nextCall.toNat = n + 1 := by
      rw [h.next, UInt64.toNat_ofNat', Nat.mod_eq_of_lt hroom]
    have holder {id : CallId} (hmem : id ∈ r.numbers) : id.toNat ≤ n + 1 :=
      Nat.le_succ_of_le (h.known id hmem)
    intro id hmem
    obtain ⟨l', hflying⟩ | ⟨_, hchanged, w, hwaits, rfl⟩ := mem_numbers.mp hmem
    · rcases List.mem_cons.mp hflying with hnew | hflying
      · obtain rfl := congrArg (·.1) hnew
        exact Nat.le_of_eq hnumber
      · exact holder (mem_numbers.mpr (.inl ⟨l', hflying⟩))
    · obtain ⟨⟨key, loop⟩, hmem, rfl⟩ := List.mem_map.mp hchanged
      dsimp only at hwaits
      split at hwaits
      · rcases List.mem_append.mp hwaits with hwaits | hnew
        · exact holder (mem_numbers.mpr (.inr ⟨_, hmem, w, hwaits, rfl⟩))
        · obtain rfl := List.mem_singleton.mp hnew
          exact Nat.le_of_eq hnumber
      · exact holder (mem_numbers.mpr (.inr ⟨_, hmem, w, hwaits, rfl⟩))

/-- **A call that is taken back right after it was begun leaves nothing** but the count. -/
theorem Numbered.withdraw_begin (h : Numbered n r) (hroom : n + 1 < 2 ^ 64) (l : LoopId)
    (callback : κ) :
    (r.begin l callback).2.withdraw l r.nextCall = { r with nextCall := r.nextCall + 1 } := by
  have hunheld := h.next_not_mem hroom
  -- the number was new, so only this entry is taken out again
  have hflights : ((r.nextCall, l) :: r.inFlight).filter (·.1 != r.nextCall) = r.inFlight := by
    rw [List.filter_cons_of_neg (by simp), List.filter_eq_self]
    rintro ⟨id, l'⟩ hflying
    refine bne_iff_ne.mpr ?_
    rintro rfl
    exact hunheld (mem_numbers.mpr (.inl ⟨l', hflying⟩))
  -- and on the loops only what was registered for it
  have hloops : ((r.modifyLoop l (·.register r.nextCall callback)).modifyLoop l
      (·.withdraw r.nextCall)).loops = r.loops := by
    rw [modifyLoop_modifyLoop]
    refine (List.map_congr_left fun entry hmem => ?_).trans (List.map_id _)
    obtain ⟨key, loop⟩ := entry
    have hwaiting : loop.waiting.filter (·.id != r.nextCall) = loop.waiting := by
      rw [List.filter_eq_self]
      intro w hwaits
      exact bne_iff_ne.mpr fun hsame => hunheld (mem_numbers.mpr (.inr ⟨_, hmem, w, hwaits, hsame⟩))
    by_cases hhere : key = l
    · simp [hhere, EventLoop.register, EventLoop.withdraw, hwaiting]
    · simp [hhere]
  show ({ r with nextCall := _, inFlight := _, loops := _ } : Relay κ) = _
  rw [← hflights, ← hloops]
  rfl

end GridBridge.Relay
