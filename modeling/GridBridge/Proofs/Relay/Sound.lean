import GridBridge.Proofs.Relay.Traffic

/-!
# Relay traffic: the invariant

**`Sound`** ties the four places of a call together: the registry, the slot, the ready queue and the
list of waiting calls. The heart of it is `Standing`: a call that a live loop waits for is still in
the registry, or one signal for it is on its way and slot and queue are as far as that signal has
come, or its signal has done all its steps and the number is in the queue with the slot filled.

Numbers are 64 bits wide, so the invariant is kept while fewer than `2 ^ 64` calls were begun: after
that numbers come round again.
-/

namespace GridBridge.Relay

open Protocol

variable {κ : Type}

/-- Where a call that loop `l` waits for stands. -/
inductive Standing (t : Traffic κ) (l : LoopId) (e : Waiting κ) : Prop where
  | inFlight (hregistered : (e.id, l) ∈ t.relay.inFlight) (hslot : e.slot = none)
      (hunready : ¬ t.relay.ReadyOn l e.id)
  | underway (c : Courier) (hmem : c ∈ t.underway) (hid : c.id = e.id) (hloop : c.loop = l)
      (hslot : e.slot = c.stage.slot c.payload)
      (hready : t.relay.ReadyOn l e.id ↔ c.stage = .pushed)
  | settled (payload : Completion) (hmem : e.id ∈ t.settled) (htaken : (e.id, payload) ∈ t.taken)
      (hslot : e.slot = some payload) (hready : t.relay.ReadyOn l e.id)

/-- The invariant of relay traffic. -/
structure Sound (t : Traffic κ) : Prop where
  nextCall : t.relay.nextCall = UInt64.ofNat (t.begun + 1)
  loopsBelow : ∀ {l}, t.relay.Alive l → l < t.relay.nextLoop
  issuedBelow : ∀ {call}, call ∈ t.issued → call.loop < t.relay.nextLoop
  /-- Every number in use was handed out. -/
  waitsKnown : ∀ {l e}, t.relay.WaitsOn l e → e.id.toNat ≤ t.begun
  takenKnown : ∀ {id}, id ∈ t.taken.map (·.1) → id.toNat ≤ t.begun
  issuedKnown : ∀ {call}, call ∈ t.issued → call.id.toNat ≤ t.begun
  /-- One call waits under a number, and on the loop that it was issued on. -/
  waitsOnce : ∀ {l l' e e'}, t.relay.WaitsOn l e → t.relay.WaitsOn l' e' → e.id = e'.id →
    l = l' ∧ e = e'
  waitsIssued : ∀ {l e call}, t.relay.WaitsOn l e → call ∈ t.issued → call.id = e.id →
    call.loop = l ∧ call.callback = e.callback
  issuedWaits : ∀ {call}, call ∈ t.issued → t.relay.Alive call.loop →
    (∀ run ∈ t.runs, run.id ≠ call.id) → ∃ e, t.relay.WaitsOn call.loop e ∧ e.id = call.id
  /-- A registered call waits, and no signal has taken it. -/
  flightWaits : ∀ {id l}, (id, l) ∈ t.relay.inFlight → ∃ e, t.relay.WaitsOn l e ∧ e.id = id
  flightUntaken : ∀ {id l}, (id, l) ∈ t.relay.inFlight → id ∉ t.taken.map (·.1)
  /-- At most one signal takes a number, and it is on its way or has done all its steps. -/
  takenOnce : (t.taken.map (·.1)).Nodup
  courierTaken : ∀ {c}, c ∈ t.underway → (c.id, c.payload) ∈ t.taken
  settledTaken : ∀ {id}, id ∈ t.settled → id ∈ t.taken.map (·.1)
  oneSignal : (t.underway.map (·.id) ++ t.settled).Nodup
  readyTaken : ∀ {l id}, t.relay.ReadyOn l id → id ∈ t.taken.map (·.1)
  standing : ∀ {l e}, t.relay.WaitsOn l e → Standing t l e
  /-- What ran was taken, waits no longer and was issued with this callback on this loop. -/
  runTaken : ∀ {run}, run ∈ t.runs → (run.id, run.payload) ∈ t.taken
  runGone : ∀ {run l e}, run ∈ t.runs → t.relay.WaitsOn l e → e.id ≠ run.id
  runOnce : (t.runs.map (·.id)).Nodup
  runIssued : ∀ {run call}, run ∈ t.runs → call ∈ t.issued → call.id = run.id →
    call.loop = run.loop ∧ call.callback = run.callback

theorem sound_fresh : Sound ({} : Traffic κ) where
  nextCall := rfl
  loopsBelow h := by simp [Alive, loop?] at h
  issuedBelow h := by simp at h
  waitsKnown h := by simp [WaitsOn, loop?] at h
  takenKnown h := by simp at h
  issuedKnown h := by simp at h
  waitsOnce h := by simp [WaitsOn, loop?] at h
  waitsIssued h := by simp [WaitsOn, loop?] at h
  issuedWaits h := by simp at h
  flightWaits h := by simp at h
  flightUntaken h := by simp at h
  takenOnce := by simp
  courierTaken h := by simp at h
  settledTaken h := by simp at h
  oneSignal := by simp
  readyTaken h := by simp [ReadyOn, loop?] at h
  standing h := by simp [WaitsOn, loop?] at h
  runTaken h := by simp at h
  runGone h := by simp at h
  runOnce := by simp
  runIssued h := by simp at h

namespace Sound

variable {t : Traffic κ}

/-! ## What the invariant says of one number -/

/-- The recorded payload of a number is the first one. -/
theorem firstTaken?_eq (h : Sound t) {id : CallId} {payload : Completion}
    (hp : (id, payload) ∈ t.taken) : t.firstTaken? id = some payload := by
  obtain ⟨before, after, hsplit⟩ := List.append_of_mem hp
  rw [Traffic.firstTaken?, List.lookup_eq_some_iff]
  refine ⟨before, after, hsplit, ?_⟩
  intro entry hentry
  have hnodup := h.takenOnce
  rw [hsplit, List.map_append, List.map_cons, List.nodup_append] at hnodup
  have hne : entry.1 ≠ id :=
    hnodup.2.2 _ (List.mem_map_of_mem hentry) _ (List.mem_cons_self ..)
  simpa using hne.symm

/-- One signal at most is on its way under a number. -/
theorem courier_unique (h : Sound t) {c c' : Courier} (hc : c ∈ t.underway)
    (hc' : c' ∈ t.underway) (hid : c.id = c'.id) : c = c' :=
  List.inj_on_of_nodup_map h.oneSignal.of_append_left hc hc' hid

/-- A number whose signal is done has no other signal on its way. -/
theorem courier_id_ne_settled (h : Sound t) {c : Courier} {id : CallId} (hc : c ∈ t.underway)
    (hid : id ∈ t.settled) : c.id ≠ id :=
  (List.nodup_append.mp h.oneSignal).2.2 _ (List.mem_map_of_mem hc) _ hid

/-- A number in a ready queue that is waited for has its payload: no wake comes without one. -/
theorem slot_of_ready (h : Sound t) {l : LoopId} {e : Waiting κ} (hwaits : t.relay.WaitsOn l e)
    (hready : t.relay.ReadyOn l e.id) :
    ∃ payload, e.slot = some payload ∧ (e.id, payload) ∈ t.taken := by
  cases h.standing hwaits with
  | inFlight _ _ hunready => exact absurd hready hunready
  | underway c hmem hid _ hslot hready' =>
    have hstage : c.stage = .pushed := hready'.mp hready
    refine ⟨c.payload, ?_, hid ▸ h.courierTaken hmem⟩
    rw [hslot, hstage]
    rfl
  | settled payload _ htaken hslot _ => exact ⟨payload, hslot, htaken⟩

/-- A call in the registry has an empty slot, and its number is in no queue. -/
theorem slot_of_inFlight (h : Sound t) {l l' : LoopId} {e : Waiting κ}
    (hwaits : t.relay.WaitsOn l e) (hregistered : (e.id, l') ∈ t.relay.inFlight) :
    e.slot = none ∧ ¬ t.relay.ReadyOn l e.id := by
  have huntaken := h.flightUntaken hregistered
  cases h.standing hwaits with
  | inFlight _ hslot hunready => exact ⟨hslot, hunready⟩
  | underway c hmem hid _ _ _ =>
    exact absurd (hid ▸ List.mem_map_of_mem (h.courierTaken hmem)) huntaken
  | settled _ _ htaken _ _ => exact absurd (List.mem_map_of_mem htaken) huntaken

/-- The number that the next call is given is not in use yet. -/
theorem toNat_nextCall (h : Sound t) (hbound : t.begun + 1 < 2 ^ 64) :
    t.relay.nextCall.toNat = t.begun + 1 := by
  rw [h.nextCall, UInt64.toNat_ofNat', Nat.mod_eq_of_lt hbound]

theorem ne_nextCall (h : Sound t) (hbound : t.begun + 1 < 2 ^ 64) {id : CallId}
    (hknown : id.toNat ≤ t.begun) : id ≠ t.relay.nextCall := by
  rintro rfl
  have hnew := h.toNat_nextCall hbound
  omega

/-- While a courier is on its way before the push, no live queue holds its number. -/
theorem standing_of_courier (h : Sound t) {c : Courier} {e : Waiting κ} {l : LoopId}
    (hc : c ∈ t.underway) (hwaits : t.relay.WaitsOn l e) (hid : e.id = c.id) :
    c.loop = l ∧ e.slot = c.stage.slot c.payload ∧
      (t.relay.ReadyOn l e.id ↔ c.stage = .pushed) := by
  have htaken := h.courierTaken hc
  cases h.standing hwaits with
  | inFlight hregistered _ _ =>
    refine absurd ?_ (h.flightUntaken hregistered)
    exact hid ▸ List.mem_map_of_mem htaken
  | underway c' hmem hid' hloop hslot hready =>
    have hcc : c' = c := h.courier_unique hmem hc (hid'.trans hid)
    subst hcc
    exact ⟨hloop, hslot, hready⟩
  | settled _ hmem _ _ _ => exact absurd hid.symm (h.courier_id_ne_settled hc hmem)

end Sound

end GridBridge.Relay
